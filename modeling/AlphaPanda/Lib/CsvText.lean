import Mathlib.Data.List.Basic

/-!
# Text in the CSV format

The reader of comma-separated records, as a machine over the characters of
lines without their line ends, and a line that quotes every field.
-/

namespace AlphaPanda.CsvText

-- ---------------------------------------------------------------------------
-- The reader
-- ---------------------------------------------------------------------------

inductive Mode where
  | startRecord
  | startField
  | inField
  | inQuotedField
  | quoteInQuotedField
  deriving DecidableEq

structure Parser where
  mode : Mode := .startRecord
  field : List Char := []
  fields : List String := []
  deriving DecidableEq

namespace Parser

def saveField (p : Parser) (mode : Mode) : Parser where
  mode := mode
  fields := p.fields ++ [String.ofList p.field]

def addChar (p : Parser) (c : Char) (mode : Mode) : Parser :=
  { p with mode := mode, field := p.field ++ [c] }

def step (p : Parser) (c : Char) : Parser :=
  match p.mode with
  | .startRecord | .startField =>
    if c = '"' then { p with mode := .inQuotedField }
    else if c = ',' then p.saveField .startField
    else p.addChar c .inField
  | .inField => if c = ',' then p.saveField .startField else p.addChar c .inField
  | .inQuotedField =>
    if c = '"' then { p with mode := .quoteInQuotedField } else p.addChar c .inQuotedField
  | .quoteInQuotedField =>
    -- a doubled quote stands for one
    if c = '"' then p.addChar c .inQuotedField
    else if c = ',' then p.saveField .startField
    else p.addChar c .inField

/-- A quoted field goes on in the next line. -/
def endLine (p : Parser) : Parser :=
  match p.mode with
  | .startRecord | .inQuotedField => p
  | .startField | .inField | .quoteInQuotedField => p.saveField .startRecord

def readLine (p : Parser) (line : String) : Parser := (line.toList.foldl step p).endLine

end Parser

def recordsFrom (p : Parser) : List String → List (List String)
  | [] => if p.mode = .inQuotedField then [(p.saveField .startRecord).fields] else []
  | line :: lines =>
    let p := p.readLine line
    if p.mode = .startRecord then p.fields :: recordsFrom {} lines else recordsFrom p lines

def records (lines : List String) : List (List String) := recordsFrom {} lines

theorem recordsFrom_cons {p : Parser} (h : recordsFrom p lines = record :: rest) :
    ∃ following, following <:+ lines ∧ rest = records following := by
  induction lines generalizing p with
  | nil =>
    unfold recordsFrom at h
    split at h
    · cases h
      exact ⟨[], List.nil_suffix, rfl⟩
    · cases h
  | cons line lines ih =>
    unfold recordsFrom at h
    dsimp only at h
    split at h
    · cases h
      exact ⟨lines, List.suffix_cons line lines, rfl⟩
    · obtain ⟨following, hsuffix, hrest⟩ := ih h
      exact ⟨following, hsuffix.trans (List.suffix_cons line lines), hrest⟩

-- ---------------------------------------------------------------------------
-- The characters of a record
-- ---------------------------------------------------------------------------

structure Parser.Within (P : Char → Prop) (p : Parser) : Prop where
  field : ∀ c ∈ p.field, P c
  fields : ∀ s ∈ p.fields, ∀ c ∈ s.toList, P c

namespace Parser

variable {P : Char → Prop} {p : Parser}

theorem within_init : Within P {} := ⟨by simp, by simp⟩

theorem Within.saveField (h : p.Within P) (mode : Mode) : (p.saveField mode).Within P := by
  refine ⟨by simp [Parser.saveField], ?_⟩
  intro s hs
  rcases List.mem_append.mp hs with hs | hs
  · exact h.fields s hs
  · cases List.mem_singleton.mp hs
    rw [String.toList_ofList]
    exact h.field

theorem Within.addChar (h : p.Within P) (hc : P c) (mode : Mode) :
    (p.addChar c mode).Within P := by
  refine ⟨?_, h.fields⟩
  intro d hd
  rcases List.mem_append.mp hd with hd | hd
  · exact h.field d hd
  · cases List.mem_singleton.mp hd
    exact hc

theorem Within.setMode (h : p.Within P) (mode : Mode) : Within P { p with mode := mode } :=
  ⟨h.field, h.fields⟩

theorem Within.step (h : p.Within P) (hc : P c) : (p.step c).Within P := by
  unfold Parser.step
  repeat' split
  all_goals first
    | exact h.setMode _
    | exact h.saveField _
    | exact h.addChar hc _

theorem Within.endLine (h : p.Within P) : p.endLine.Within P := by
  unfold Parser.endLine
  split
  all_goals first
    | exact h
    | exact h.saveField _

theorem Within.readLine (h : p.Within P) {line : String} (hline : ∀ c ∈ line.toList, P c) :
    (p.readLine line).Within P := by
  suffices hfold : ∀ cs : List Char, (∀ c ∈ cs, P c) → ∀ p : Parser, p.Within P →
      (cs.foldl Parser.step p).Within P from (hfold _ hline p h).endLine
  intro cs hcs
  induction cs with
  | nil => exact fun p h => h
  | cons c cs ih =>
    intro p h
    exact ih (fun d hd => hcs d (List.mem_cons_of_mem c hd)) _ (h.step (hcs c List.mem_cons_self))

end Parser

theorem within_recordsFrom {P : Char → Prop} {p : Parser} (h : p.Within P)
    (hlines : ∀ line ∈ lines, ∀ c ∈ line.toList, P c) (hrecord : record ∈ recordsFrom p lines) :
    ∀ s ∈ record, ∀ c ∈ s.toList, P c := by
  induction lines generalizing p with
  | nil =>
    unfold recordsFrom at hrecord
    split at hrecord
    · cases List.mem_singleton.mp hrecord
      exact (h.saveField _).fields
    · cases hrecord
  | cons line lines ih =>
    have hrest := fun l hl => hlines l (List.mem_cons_of_mem line hl)
    have hread := h.readLine (hlines line List.mem_cons_self)
    unfold recordsFrom at hrecord
    dsimp only at hrecord
    split at hrecord
    · rcases List.mem_cons.mp hrecord with rfl | hrecord
      · exact hread.fields
      · exact ih Parser.within_init hrest hrecord
    · exact ih hread hrest hrecord

-- ---------------------------------------------------------------------------
-- Quoting
-- ---------------------------------------------------------------------------

def quoteChar (c : Char) : List Char := if c = '"' then ['"', '"'] else [c]

def quote (s : String) : List Char := '"' :: (s.toList.flatMap quoteChar ++ ['"'])

def quoteAll : List String → List Char
  | [] => []
  | [s] => quote s
  | s :: rest => quote s ++ ',' :: quoteAll rest

def quoteRow (record : List String) : String := String.ofList (quoteAll record)

theorem foldl_step_quoteChar (cs field : List Char) (fields : List String) :
    (cs.flatMap quoteChar).foldl Parser.step ⟨.inQuotedField, field, fields⟩ =
      ⟨.inQuotedField, field ++ cs, fields⟩ := by
  induction cs generalizing field with
  | nil => simp
  | cons c cs ih =>
    rw [List.flatMap_cons, List.foldl_append]
    have hone : (quoteChar c).foldl Parser.step ⟨.inQuotedField, field, fields⟩ =
        ⟨.inQuotedField, field ++ [c], fields⟩ := by
      by_cases h : c = '"' <;> simp [quoteChar, h, Parser.step, Parser.addChar]
    rw [hone, ih, List.append_assoc, List.singleton_append]

theorem foldl_step_quote (s : String) {mode : Mode} (h : mode = .startRecord ∨ mode = .startField)
    (fields : List String) : (quote s).foldl Parser.step ⟨mode, [], fields⟩ =
      ⟨.quoteInQuotedField, s.toList, fields⟩ := by
  have hopen : Parser.step ⟨mode, [], fields⟩ '"' = ⟨.inQuotedField, [], fields⟩ := by
    rcases h with rfl | rfl <;> rfl
  rw [quote, List.foldl_cons, hopen, List.foldl_append, foldl_step_quoteChar]
  rfl

theorem readLine_quoteAll (h : record ≠ []) {mode : Mode}
    (hmode : mode = .startRecord ∨ mode = .startField) (fields : List String) :
    ((quoteAll record).foldl Parser.step ⟨mode, [], fields⟩).endLine =
      ⟨.startRecord, [], fields ++ record⟩ := by
  induction record generalizing mode fields with
  | nil => exact absurd rfl h
  | cons s rest ih =>
    cases rest with
    | nil =>
      rw [quoteAll, foldl_step_quote s hmode]
      simp [Parser.endLine, Parser.saveField]
    | cons t rest =>
      have hcomma : Parser.step ⟨.quoteInQuotedField, s.toList, fields⟩ ',' =
          ⟨.startField, [], fields ++ [s]⟩ := by simp [Parser.step, Parser.saveField]
      rw [quoteAll, List.foldl_append, foldl_step_quote s hmode, List.foldl_cons, hcomma,
        ih (List.cons_ne_nil t rest) (.inr rfl), List.append_assoc, List.singleton_append]
      simp

theorem records_quoteRow (h : record ≠ []) (lines : List String) :
    records (quoteRow record :: lines) = record :: records lines := by
  have hread : Parser.readLine {} (quoteRow record) = ⟨.startRecord, [], record⟩ := by
    rw [Parser.readLine, quoteRow, String.toList_ofList]
    exact readLine_quoteAll h (.inl rfl) []
  rw [records, recordsFrom, hread]
  rfl

theorem quoteAll_head (h : record ≠ []) : ∃ rest, quoteAll record = '"' :: rest := by
  cases record with
  | nil => exact absurd rfl h
  | cons s rest =>
    cases rest with
    | nil => exact ⟨_, rfl⟩
    | cons t rest => exact ⟨_, rfl⟩

theorem quoteAll_last (h : record ≠ []) : ∃ front, quoteAll record = front ++ ['"'] := by
  induction record with
  | nil => exact absurd rfl h
  | cons s rest ih =>
    cases rest with
    | nil => exact ⟨'"' :: s.toList.flatMap quoteChar, rfl⟩
    | cons t rest =>
      obtain ⟨front, hfront⟩ := ih (List.cons_ne_nil t rest)
      exact ⟨quote s ++ ',' :: front, by simp [quoteAll, hfront]⟩

theorem quote_isInfix (h : s ∈ record) : quote s <:+: quoteAll record := by
  induction record with
  | nil => cases h
  | cons t rest ih =>
    cases rest with
    | nil =>
      cases List.mem_singleton.mp h
      exact List.infix_rfl
    | cons u rest =>
      rcases List.mem_cons.mp h with rfl | h
      · exact (List.prefix_append _ _).isInfix
      · exact (ih h).trans ((List.suffix_cons _ _).trans (List.suffix_append _ _)).isInfix

theorem mem_quoteAll (h : c ∈ quoteAll record) :
    c = '"' ∨ c = ',' ∨ ∃ s ∈ record, c ∈ s.toList := by
  have hquote : ∀ s, c ∈ quote s → c = '"' ∨ c ∈ s.toList := by
    intro s hs
    simp only [quote, List.mem_cons, List.mem_append, List.mem_flatMap, List.not_mem_nil,
      or_false] at hs
    rcases hs with rfl | ⟨d, hd, hc⟩ | rfl
    · exact .inl rfl
    · unfold quoteChar at hc
      split at hc
      · simp only [List.mem_cons, List.not_mem_nil, or_false, or_self] at hc
        exact .inl hc
      · cases List.mem_singleton.mp hc
        exact .inr hd
    · exact .inl rfl
  induction record with
  | nil => cases h
  | cons s rest ih =>
    cases rest with
    | nil => exact (hquote s h).imp_right fun hc => .inr ⟨s, List.mem_cons_self, hc⟩
    | cons t rest =>
      rcases List.mem_append.mp h with h | h
      · exact (hquote s h).imp_right fun hc => .inr ⟨s, List.mem_cons_self, hc⟩
      · rcases List.mem_cons.mp h with rfl | h
        · exact .inr (.inl rfl)
        · rcases ih h with hc | hc | ⟨u, hu, hc⟩
          · exact .inl hc
          · exact .inr (.inl hc)
          · exact .inr (.inr ⟨u, List.mem_cons_of_mem s hu, hc⟩)

end AlphaPanda.CsvText
