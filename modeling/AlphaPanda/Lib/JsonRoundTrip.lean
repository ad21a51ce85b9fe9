import AlphaPanda.Lib.Json

/-!
# What is written is read back

`loads` reads what `dumps` writes, for every value whose objects have distinct
names.
-/

namespace Json

-- ---------------------------------------------------------------------------
-- Strings
-- ---------------------------------------------------------------------------

theorem hexValue_hexDigit (h : d < 16) : hexValue (hexDigit d) = some d := by
  have hall : ∀ d : Fin 16, hexValue (hexDigit d) = some d.val := by decide +kernel
  exact hall ⟨d, h⟩

theorem hexUnit_hexDigit (h : n < 0x10000) : hexUnit (hexDigit (n / 4096 % 16))
    (hexDigit (n / 256 % 16)) (hexDigit (n / 16 % 16)) (hexDigit (n % 16)) = some n := by
  have hdigit : ∀ m, hexValue (hexDigit (m % 16)) = some (m % 16) := fun m =>
    hexValue_hexDigit (Nat.mod_lt m (by decide))
  have hsum : 4096 * (n / 4096 % 16) + 256 * (n / 256 % 16) + 16 * (n / 16 % 16) + n % 16 = n := by
    omega
  simp [hexUnit, hdigit, hsum]

theorem scanUnits_escapeUnit (h : n < 0x10000) (rest : List Char) :
    scanUnits (escapeUnit n ++ rest) = (scanUnits rest).map fun (us, r) => (n :: us, r) := by
  simp only [escapeUnit, List.cons_append, List.nil_append, scanUnits, hexUnit_hexDigit h]
  cases scanUnits rest <;> rfl

theorem scanUnits_plain {c : Char} (hquote : c ≠ '"') (hslash : c ≠ '\\') (h : 0x20 ≤ c.toNat)
    (rest : List Char) :
    scanUnits (c :: rest) = (scanUnits rest).map fun (us, r) => (c.toNat :: us, r) := by
  rw [scanUnits.eq_def]
  split
  · simp_all
  · simp_all
  · simp_all
  · simp_all
  · rename_i heq
    obtain ⟨rfl, rfl⟩ := List.cons.inj heq
    have hguard : (guard (0x20 ≤ c.toNat ∧ c ≠ '\\') : Option Unit) = some () := if_pos ⟨h, hslash⟩
    rw [hguard]
    cases scanUnits rest <;> rfl

theorem unescape_shortEscape (h : shortEscape c = some e) :
    unescape e = some c.toNat ∧ e ≠ 'u' ∧ c.toNat < 0x10000 := by
  unfold shortEscape at h
  split at h <;> cases h <;> exact ⟨rfl, by decide, by decide⟩

theorem scanUnits_short (h : unescape e = some n) (hne : e ≠ 'u') (rest : List Char) :
    scanUnits ('\\' :: e :: rest) = (scanUnits rest).map fun (us, r) => (n :: us, r) := by
  rw [scanUnits.eq_def]
  split
  · simp_all
  · simp_all
  · simp_all
  · rename_i heq
    obtain ⟨rfl, rfl⟩ := List.cons.inj (List.cons.inj heq).2
    rw [h]
    cases scanUnits rest <;> rfl
  · rename_i hnone heq
    obtain ⟨hslash, htail⟩ := List.cons.inj heq
    exact absurd htail.symm (hnone _ _ hslash.symm)

theorem char_lt (c : Char) : c.toNat < 0xd800 ∨ 0xdfff < c.toNat ∧ c.toNat < 0x110000 := c.valid

theorem scanUnits_escape (c : Char) (rest : List Char) :
    scanUnits (escape c ++ rest) = (scanUnits rest).map fun (us, r) => (units c ++ us, r) := by
  unfold escape
  cases hshort : shortEscape c with
  | some e =>
    obtain ⟨hescape, hne, hlt⟩ := unescape_shortEscape hshort
    rw [units, if_pos hlt]
    exact scanUnits_short hescape hne rest
  | none =>
    dsimp only
    split
    · rename_i hprintable
      rw [units, if_pos (by omega)]
      refine scanUnits_plain ?_ ?_ hprintable.1 rest <;> rintro rfl <;> cases hshort
    · have hvalid := char_lt c
      unfold units
      split
      · rename_i hbmp
        rw [List.flatMap_singleton]
        exact scanUnits_escapeUnit hbmp rest
      · simp only [List.flatMap_cons, List.flatMap_nil, List.append_nil, List.append_assoc]
        rw [scanUnits_escapeUnit (by omega), scanUnits_escapeUnit (by omega), Option.map_map]
        rfl

theorem scanUnits_escapes (cs rest : List Char) :
    scanUnits (cs.flatMap escape ++ '"' :: rest) = some (cs.flatMap units, rest) := by
  induction cs with
  | nil => rfl
  | cons c cs ih =>
    rw [List.flatMap_cons, List.append_assoc, scanUnits_escape, ih]
    rfl

theorem unitChar_toNat (c : Char) : unitChar c.toNat = c := by
  have hvalid : c.toNat.isValidChar := c.valid
  rw [unitChar, if_pos hvalid, Char.ofNat_toNat]

theorem joinUnits_units (c : Char) (us : List ℕ) : joinUnits (units c ++ us) = c :: joinUnits us := by
  have hvalid := char_lt c
  unfold units
  split
  · cases us with
    | nil => exact congrArg (· :: []) (unitChar_toNat c)
    | cons l us =>
      rw [List.singleton_append, joinUnits, if_neg (by omega), unitChar_toNat]
  · rw [List.cons_append, List.singleton_append, joinUnits, if_pos (by omega)]
    have hsum : 0x10000 + 0x400 * (0xd800 + (c.toNat - 0x10000) / 0x400 - 0xd800) +
        (0xdc00 + (c.toNat - 0x10000) % 0x400 - 0xdc00) = c.toNat := by
      omega
    rw [hsum, Char.ofNat_toNat]

theorem joinUnits_flatMap (cs : List Char) : joinUnits (cs.flatMap units) = cs := by
  induction cs with
  | nil => rfl
  | cons c cs ih => rw [List.flatMap_cons, joinUnits_units, ih]

theorem scanString_escapes (s : String) (rest : List Char) :
    scanString (s.toList.flatMap escape ++ '"' :: rest) = some (s, rest) := by
  simp [scanString, scanUnits_escapes, joinUnits_flatMap]

-- ---------------------------------------------------------------------------
-- Numbers
-- ---------------------------------------------------------------------------

def NoDigit (r : List Char) : Prop := ∀ c ∈ r.head?, c.isDigit = false

def Delimited (r : List Char) : Prop := ∀ c ∈ r.head?, c = ',' ∨ c = ']' ∨ c = '}'

theorem Delimited.noDigit (h : Delimited r) : NoDigit r := by
  intro c hc
  rcases h c hc with rfl | rfl | rfl <;> rfl

theorem span_digits {ds r : List Char} (hds : ∀ c ∈ ds, c.isDigit) (hr : NoDigit r) :
    (ds ++ r).takeWhile Char.isDigit = ds ∧ (ds ++ r).dropWhile Char.isDigit = r := by
  have hnone : r.takeWhile Char.isDigit = [] ∧ r.dropWhile Char.isDigit = r := by
    cases r with
    | nil => exact ⟨rfl, rfl⟩
    | cons c cs =>
      have hc := hr c rfl
      exact ⟨List.takeWhile_cons_of_neg (by simp [hc]), List.dropWhile_cons_of_neg (by simp [hc])⟩
  rw [List.takeWhile_append_of_pos hds, List.dropWhile_append_of_pos hds, hnone.1, hnone.2,
    List.append_nil]
  exact ⟨rfl, rfl⟩

theorem int_head {t : Literal} (ht : t.Valid) : ∃ d ds, t.int = d :: ds ∧ d.isDigit := by
  rcases ht.int with hzero | ⟨hne, -, hdigits⟩
  · exact ⟨'0', [], hzero, rfl⟩
  · obtain ⟨d, ds, heq⟩ := List.exists_cons_of_ne_nil hne
    exact ⟨d, ds, heq, hdigits d (heq ▸ List.mem_cons_self)⟩

theorem scanInt_append {t : Literal} (ht : t.Valid) (hr : NoDigit r) :
    scanInt (t.int ++ r) = some (t.int, r) := by
  rcases ht.int with hzero | ⟨-, hzero, hdigits⟩
  · rw [hzero]
    rfl
  · obtain ⟨d, ds, heq, -⟩ := int_head ht
    rw [heq] at hzero hdigits ⊢
    have hne : d ≠ '0' := fun h => hzero (congrArg some h)
    obtain ⟨htake, hdrop⟩ := span_digits (fun c hc => hdigits c (List.mem_cons_of_mem _ hc)) hr
    rw [List.cons_append, scanInt.eq_def]
    split
    · simp_all
    · simp_all
    · rename_i heq
      obtain ⟨rfl, rfl⟩ := List.cons.inj heq
      rw [if_pos (hdigits _ List.mem_cons_self), htake, hdrop]

theorem scanFrac_append {t : Literal} (ht : t.Valid) (hr : NoDigit r) (hpoint : r.head? ≠ some '.') :
    scanFrac (t.fracText ++ r) = (t.frac, r) := by
  unfold Literal.fracText
  by_cases hnil : t.frac = []
  · rw [if_pos hnil, List.nil_append, hnil, scanFrac.eq_def]
    split
    · exact absurd rfl hpoint
    · rfl
  · obtain ⟨htake, hdrop⟩ := span_digits ht.frac hr
    rw [if_neg hnil, List.cons_append, scanFrac, htake, hdrop, if_neg hnil]

theorem scanSign_append {sign ds : List Char} (h : sign = [] ∨ sign = ['+'] ∨ sign = ['-'])
    (hds : ∀ c ∈ ds.head?, c.isDigit) : scanSign (sign ++ ds) = (sign, ds) := by
  rcases h with rfl | rfl | rfl
  · rw [List.nil_append, scanSign.eq_def]
    split
    · exact absurd (hds _ rfl) (by decide)
    · exact absurd (hds _ rfl) (by decide)
    · rfl
  · rfl
  · rfl

theorem scanExp_append {t : Literal} (ht : t.Valid) (hr : Delimited r) :
    scanExp (t.expText ++ r) = ((t.expSign, t.exp), r) := by
  unfold Literal.expText
  by_cases hnil : t.exp = []
  · have hsign := ht.expSign.resolve_right fun h => h.1 hnil
    rw [if_pos hnil, List.nil_append, hsign, hnil]
    cases r with
    | nil => rfl
    | cons c r =>
      have hc : ¬(c = 'e' ∨ c = 'E') := by rcases hr c rfl with rfl | rfl | rfl <;> decide
      simp [scanExp, hc]
  · obtain ⟨htake, hdrop⟩ := span_digits ht.exp hr.noDigit
    have hhead : ∀ c ∈ (t.exp ++ r).head?, c.isDigit := by
      obtain ⟨d, ds, hd⟩ := List.exists_cons_of_ne_nil hnil
      rw [hd]
      intro c hc
      cases hc
      exact ht.exp d (hd ▸ List.mem_cons_self)
    rw [if_neg hnil, List.cons_append, List.append_assoc, scanExp,
      scanSign_append (ht.expSign.imp_right And.right) hhead]
    simp [htake, hdrop, hnil]

theorem expText_follows (t : Literal) (hr : Delimited r) :
    NoDigit (t.expText ++ r) ∧ (t.expText ++ r).head? ≠ some '.' := by
  unfold Literal.expText
  split
  · refine ⟨hr.noDigit, fun hpoint => ?_⟩
    rcases hr '.' hpoint with h | h | h <;> exact absurd h (by decide)
  · refine ⟨fun c hc => ?_, fun hpoint => ?_⟩
    · cases hc
      rfl
    · cases hpoint

theorem fracText_follows (t : Literal) (hr : NoDigit r) : NoDigit (t.fracText ++ r) := by
  unfold Literal.fracText
  split
  · exact hr
  · intro c hc
    cases hc
    rfl

theorem scanMinus_append {t : Literal} (ht : t.Valid) (r : List Char) :
    scanMinus ((if t.negative then ['-'] else []) ++ (t.int ++ r)) = (t.negative, t.int ++ r) := by
  obtain ⟨d, ds, hd, hdigit⟩ := int_head ht
  have hminus : d ≠ '-' := by
    rintro rfl
    cases hdigit
  cases t.negative with
  | true => rfl
  | false =>
    rw [if_neg Bool.false_ne_true, List.nil_append, hd, List.cons_append, scanMinus.eq_def]
    split
    · rename_i heq
      exact absurd (List.cons.inj heq).1 hminus
    · rfl

theorem scanNumber_text {t : Literal} (ht : t.Valid) (hr : Delimited r) :
    scanNumber (t.text ++ r) = some (t, r) := by
  obtain ⟨hexp, hpoint⟩ := expText_follows t hr
  rw [scanNumber, Literal.text, List.append_assoc, List.append_assoc, List.append_assoc,
    scanMinus_append ht]
  dsimp only
  rw [scanInt_append ht (fracText_follows t hexp)]
  simp only [Option.bind_eq_bind, Option.bind_some]
  rw [scanFrac_append ht hexp hpoint]
  dsimp only
  rw [scanExp_append ht hr]

theorem toDigits_head {n : ℕ} (h : 0 < n) : ∃ d ds, Nat.toDigits 10 n = d :: ds ∧ d ≠ '0' := by
  induction n using Nat.strong_induction_on with
  | _ n ih =>
    rw [Nat.toDigits_eq_if (by decide)]
    split
    · rename_i hlt
      have hdigit : ∀ m : Fin 10, 0 < m.val → Nat.digitChar m ≠ '0' := by decide
      exact ⟨_, [], rfl, hdigit ⟨n, hlt⟩ h⟩
    · obtain ⟨d, ds, heq, hne⟩ := ih (n / 10) (by omega) (by omega)
      exact ⟨d, _, by rw [heq, List.cons_append], hne⟩

theorem ofInt_valid (n : ℤ) : (Literal.ofInt n).Valid where
  int := by
    rcases Nat.eq_zero_or_pos n.natAbs with hzero | hpos
    · rw [Literal.ofInt, hzero]
      exact .inl rfl
    · obtain ⟨d, ds, heq, hne⟩ := toDigits_head hpos
      refine .inr ⟨Nat.toDigits_ne_nil, ?_, fun c hc => ?_⟩
      · rw [Literal.ofInt, heq]
        exact fun h => hne (Option.some.inj h)
      · exact Nat.isDigit_of_mem_toDigits (by decide) (by decide) hc
  frac _ h := absurd h List.not_mem_nil
  exp _ h := absurd h List.not_mem_nil
  expSign := .inl rfl

theorem toInt_ofInt (n : ℤ) : (Literal.ofInt n).toInt = n := by
  rw [Literal.toInt, Literal.ofInt, Nat.ofDigitChars_ten_toDigits]
  dsimp only
  split
  · rename_i h
    have := of_decide_eq_true h
    omega
  · rename_i h
    have := of_decide_eq_false (Bool.not_eq_true _ ▸ h)
    omega

-- ---------------------------------------------------------------------------
-- Atoms
-- ---------------------------------------------------------------------------

section
variable {fl : Floats}

theorem ofLiteral_ofInt (n : ℤ) : ofLiteral fl (Literal.ofInt n) = .int n := by
  have hint : (Literal.ofInt n).isInt = true := rfl
  rw [ofLiteral, if_pos hint, toInt_ofInt]

theorem ofLiteral_repr (x : fl.Finite) : ofLiteral fl (fl.repr x) = .float x := by
  rw [ofLiteral, fl.not_int, if_neg Bool.false_ne_true, fl.float_repr]

theorem text_head {t : Literal} (ht : t.Valid) (r : List Char) : ∃ c cs, t.text ++ r = c :: cs ∧
    (c.isDigit ∨ c = '-' ∧ ∃ d ds, cs = d :: ds ∧ d.isDigit) := by
  obtain ⟨d, ds, hd, hdigit⟩ := int_head ht
  rw [Literal.text, hd]
  cases t.negative with
  | true => exact ⟨'-', _, rfl, .inr ⟨rfl, d, _, rfl, hdigit⟩⟩
  | false => exact ⟨d, _, rfl, .inl hdigit⟩

theorem words_names {w : String × Json fl.Finite} (h : w ∈ words fl) :
    w.1 ∈ ["null", "true", "false", "NaN", "Infinity", "-Infinity"] :=
  List.mem_map_of_mem (f := Prod.fst) h

theorem scanAtom_text {t : Literal} (ht : t.Valid) (hr : Delimited r) :
    scanAtom fl (t.text ++ r) = some (ofLiteral fl t, r) := by
  have hscan := scanNumber_text ht hr
  obtain ⟨c, cs, hcs, hhead⟩ := text_head ht r
  have hword : ∀ w ∈ words fl, ¬w.1.toList <+: t.text ++ r := by
    intro w hw hstart
    rw [hcs] at hstart
    have hname := words_names hw
    generalize w.1 = name at hname hstart
    simp only [List.mem_cons, List.not_mem_nil, or_false] at hname
    rcases hhead with hdigit | ⟨rfl, d, ds, rfl, hdigit⟩
    · rcases hname with rfl | rfl | rfl | rfl | rfl | rfl <;>
      · obtain rfl := (List.cons_prefix_cons.mp hstart).1
        exact absurd hdigit (by decide)
    · rcases hname with rfl | rfl | rfl | rfl | rfl | rfl
      all_goals obtain ⟨hfirst, hrest⟩ := List.cons_prefix_cons.mp hstart
      case inr.inr.inr.inr.inr =>
        obtain rfl := (List.cons_prefix_cons.mp hrest).1
        exact absurd hdigit (by decide)
      all_goals exact absurd hfirst (by decide)
  have hnone : (words fl).find? (fun w => w.1.toList <+: t.text ++ r) = none :=
    List.find?_eq_none.mpr fun w hw h => hword w hw (of_decide_eq_true h)
  rw [scanAtom, hnone, hscan]
  rfl

theorem scanValue_atom {c : Char} (h : c ≠ '"' ∧ c ≠ '[' ∧ c ≠ '{') (n : ℕ) (cs : List Char) :
    scanValue fl (n + 1) (c :: cs) = scanAtom fl (c :: cs) := by
  rw [scanValue.eq_def]
  split
  · rename_i heq
    cases heq
  · rename_i heq
    exact absurd (List.cons.inj heq).1 h.1
  · rename_i heq
    exact absurd (List.cons.inj heq).1 h.2.1
  · rename_i heq
    exact absurd (List.cons.inj heq).1 h.2.2
  · rfl

theorem scanValue_text {t : Literal} (ht : t.Valid) (hr : Delimited r) (n : ℕ) :
    scanValue fl (n + 1) (t.text ++ r) = some (ofLiteral fl t, r) := by
  obtain ⟨c, cs, hcs, hhead⟩ := text_head ht r
  have hatom : c ≠ '"' ∧ c ≠ '[' ∧ c ≠ '{' := by
    rcases hhead with hdigit | ⟨rfl, -⟩
    · refine ⟨?_, ?_, ?_⟩ <;> rintro rfl <;> exact absurd hdigit (by decide)
    · decide
  rw [hcs, scanValue_atom hatom, ← hcs, scanAtom_text ht hr]

theorem scanAtom_word {v : Json fl.Finite}
    (h : (words fl).find? (fun w => w.1.toList <+: name.toList ++ r) = some (name, v)) :
    scanAtom fl (name.toList ++ r) = some (v, r) := by
  rw [scanAtom, h]
  exact congrArg (fun rest => some (v, rest)) List.drop_left

theorem scanAtom_words (r : List Char) :
    scanAtom fl ("null".toList ++ r) = some (.null, r) ∧
      scanAtom fl ("true".toList ++ r) = some (.bool true, r) ∧
        scanAtom fl ("false".toList ++ r) = some (.bool false, r) ∧
          scanAtom fl ("NaN".toList ++ r) = some (.nan, r) ∧
            scanAtom fl ("Infinity".toList ++ r) = some (.infinity false, r) ∧
              scanAtom fl ("-Infinity".toList ++ r) = some (.infinity true, r) := by
  refine ⟨scanAtom_word ?_, scanAtom_word ?_, scanAtom_word ?_, scanAtom_word ?_, scanAtom_word ?_,
    scanAtom_word ?_⟩
  all_goals
    simp only [words, List.find?_cons]
    simp

-- ---------------------------------------------------------------------------
-- Values
-- ---------------------------------------------------------------------------

theorem dumps_head (v : Json fl.Finite) (r : List Char) :
    ∃ c cs, dumps fl v ++ r = c :: cs ∧ isSpace c = false ∧ c ≠ ']' := by
  have hnumber : ∀ {t : Literal}, t.Valid →
      ∃ c cs, t.text ++ r = c :: cs ∧ isSpace c = false ∧ c ≠ ']' := by
    intro t ht
    obtain ⟨c, cs, hcs, hhead⟩ := text_head ht r
    refine ⟨c, cs, hcs, ?_⟩
    rcases hhead with hdigit | ⟨rfl, -⟩
    · refine ⟨decide_eq_false ?_, ?_⟩
      · rintro (rfl | rfl | rfl | rfl) <;> exact absurd hdigit (by decide)
      · rintro rfl
        exact absurd hdigit (by decide)
    · decide
  cases v with
  | null => exact ⟨'n', _, rfl, by decide, by decide⟩
  | bool b => cases b <;> exact ⟨_, _, rfl, by decide, by decide⟩
  | int n => exact hnumber (ofInt_valid n)
  | float x => exact hnumber (fl.valid x)
  | nan => exact ⟨'N', _, rfl, by decide, by decide⟩
  | infinity negative => cases negative <;> exact ⟨_, _, rfl, by decide, by decide⟩
  | str s => exact ⟨'"', _, rfl, by decide, by decide⟩
  | array vs => cases vs <;> exact ⟨'[', _, rfl, by decide, by decide⟩
  | object es =>
    rcases es with - | ⟨⟨k, v⟩, es⟩ <;> exact ⟨'\x7b', _, rfl, by decide, by decide⟩

theorem skipSpace_dumps (v : Json fl.Finite) (r : List Char) :
    skipSpace (dumps fl v ++ r) = dumps fl v ++ r := by
  obtain ⟨c, cs, hcs, hspace, -⟩ := dumps_head v r
  rw [hcs, skipSpace, List.dropWhile_cons_of_neg (by simp [hspace])]

theorem delimited_cons (h : c = ',' ∨ c = ']' ∨ c = '\x7d') (cs : List Char) :
    Delimited (c :: cs) := by
  intro c' hc'
  cases hc'
  exact h

theorem scanValue_array (n : ℕ) (cs : List Char) : scanValue fl (n + 1) ('[' :: cs) =
    if (skipSpace cs).head? = some ']' then some (.array [], (skipSpace cs).tail)
    else (scanItems fl n (skipSpace cs)).map fun (vs, rest) => (.array vs, rest) := by
  rw [scanValue]
  split
  · rename_i heq
    rw [heq]
    rfl
  · rename_i hne
    refine (if_neg fun hhead => ?_).symm
    obtain ⟨cs', heq⟩ := List.head?_eq_some_iff.mp hhead
    exact hne cs' heq

theorem scanValue_object (n : ℕ) (cs : List Char) : scanValue fl (n + 1) ('\x7b' :: cs) =
    if (skipSpace cs).head? = some '\x7d' then some (.object [], (skipSpace cs).tail)
    else (scanEntries fl n (skipSpace cs)).map
      fun (es, rest) => (.object (Dict.ofList es).entries, rest) := by
  rw [scanValue]
  split
  · rename_i heq
    rw [heq]
    rfl
  · rename_i hne
    refine (if_neg fun hhead => ?_).symm
    obtain ⟨cs', heq⟩ := List.head?_eq_some_iff.mp hhead
    exact hne cs' heq

theorem scanItems_iff {vs : List (Json fl.Finite)} : scanItems fl (n + 1) cs = some (vs, r) ↔
    ∃ v rest, scanValue fl n cs = some (v, rest) ∧
      (skipSpace rest = ']' :: r ∧ vs = [v] ∨ ∃ cs' vs', skipSpace rest = ',' :: cs' ∧
        scanItems fl n (skipSpace cs') = some (vs', r) ∧ vs = v :: vs') := by
  rw [scanItems]
  constructor
  · intro h
    obtain ⟨⟨v, rest⟩, hv, h⟩ := Option.bind_eq_some_iff.mp h
    refine ⟨v, rest, hv, ?_⟩
    dsimp only at h
    split at h
    · rename_i hskip
      cases h
      exact .inl ⟨hskip, rfl⟩
    · rename_i hskip
      obtain ⟨⟨vs', r'⟩, hvs, heq⟩ := Option.map_eq_some_iff.mp h
      cases heq
      exact .inr ⟨_, vs', hskip, hvs, rfl⟩
    · cases h
  · rintro ⟨v, rest, hv, ⟨hskip, rfl⟩ | ⟨cs', vs', hskip, hvs, rfl⟩⟩
    · simp [hv, hskip]
    · simp [hv, hskip, hvs]

theorem scanEntries_iff {es : List (String × Json fl.Finite)} :
    scanEntries fl (n + 1) cs = some (es, r) ↔ ∃ cs₁ k cs₂ cs₃ v rest, cs = '"' :: cs₁ ∧
      scanString cs₁ = some (k, cs₂) ∧ skipSpace cs₂ = ':' :: cs₃ ∧
        scanValue fl n (skipSpace cs₃) = some (v, rest) ∧
          (skipSpace rest = '\x7d' :: r ∧ es = [(k, v)] ∨ ∃ cs' es', skipSpace rest = ',' :: cs' ∧
            scanEntries fl n (skipSpace cs') = some (es', r) ∧ es = (k, v) :: es') := by
  constructor
  · intro h
    rw [scanEntries.eq_def] at h
    split at h
    · rename_i m cs₁ hm
      obtain rfl := Nat.succ.inj hm
      obtain ⟨⟨k, cs₂⟩, hk, h⟩ := Option.bind_eq_some_iff.mp h
      dsimp only at h
      split at h
      · rename_i cs₃ hcolon
        obtain ⟨⟨v, rest⟩, hv, h⟩ := Option.bind_eq_some_iff.mp h
        refine ⟨cs₁, k, cs₂, cs₃, v, rest, rfl, hk, hcolon, hv, ?_⟩
        dsimp only at h
        split at h
        · rename_i hskip
          cases h
          exact .inl ⟨hskip, rfl⟩
        · rename_i hskip
          obtain ⟨⟨es', r'⟩, hes, heq⟩ := Option.map_eq_some_iff.mp h
          cases heq
          exact .inr ⟨_, es', hskip, hes, rfl⟩
        · cases h
      · cases h
    · cases h
  · rintro ⟨cs₁, k, cs₂, cs₃, v, rest, rfl, hk, hcolon, hv, ⟨hskip, rfl⟩ | ⟨cs', es', hskip, hes, rfl⟩⟩
    · simp [scanEntries, hk, hcolon, hv, hskip]
    · simp [scanEntries, hk, hcolon, hv, hskip, hes]

theorem skipSpace_space (cs : List Char) : skipSpace (' ' :: cs) = skipSpace cs := rfl

mutual

/-- With fuel for each character twice, a value is read up to what follows. -/
theorem scanValue_dumps {n : ℕ} (v : Json fl.Finite) (hv : v.Distinct)
    (hfuel : 2 * (dumps fl v ++ r).length ≤ n) (hr : Delimited r) :
    scanValue fl n (dumps fl v ++ r) = some (v, r) := by
  obtain ⟨m, rfl⟩ : ∃ m, n = m + 1 := by
    obtain ⟨c, cs, hcs, -⟩ := dumps_head v r
    rw [hcs, List.length_cons] at hfuel
    exact ⟨n - 1, by omega⟩
  obtain ⟨hnull, htrue, hfalse, hnan, hinf, hneg⟩ := @scanAtom_words fl r
  match v, hv with
  | .null, _ => exact hnull
  | .bool true, _ => exact htrue
  | .bool false, _ => exact hfalse
  | .int i, _ =>
    rw [dumps, scanValue_text (ofInt_valid i) hr, ofLiteral_ofInt]
  | .float x, _ =>
    rw [dumps, scanValue_text (fl.valid x) hr, ofLiteral_repr]
  | .nan, _ => exact hnan
  | .infinity false, _ => exact hinf
  | .infinity true, _ => exact hneg
  | .str s, _ =>
    rw [dumps, quote, List.cons_append, List.append_assoc, List.singleton_append, scanValue,
      scanString_escapes]
    rfl
  | .array [], _ => rfl
  | .array (w :: ws), ⟨hw, hws⟩ =>
    have htext : dumps fl (.array (w :: ws)) ++ r =
        '[' :: (dumps fl w ++ (dumpsItems fl ws ++ ']' :: r)) := by
      simp [dumps]
    rw [htext] at hfuel ⊢
    have hlength : 2 * (dumps fl w ++ (dumpsItems fl ws ++ ']' :: r)).length < m := by
      rw [List.length_cons] at hfuel
      omega
    have hhead : (dumps fl w ++ (dumpsItems fl ws ++ ']' :: r)).head? ≠ some ']' := by
      obtain ⟨c, cs, hcs, -, hne⟩ := dumps_head w (dumpsItems fl ws ++ ']' :: r)
      rw [hcs]
      exact fun h => hne (Option.some.inj h)
    rw [scanValue_array, skipSpace_dumps, if_neg hhead, scanItems_dumps w ws hw hws hlength]
    rfl
  | .object [], _ => rfl
  | .object ((k, w) :: es), ⟨hnames, hw, hes⟩ =>
    have htext : dumps fl (.object ((k, w) :: es)) ++ r =
        '\x7b' :: (quote k ++ ':' :: ' ' :: (dumps fl w ++ (dumpsEntries fl es ++ '\x7d' :: r))) := by
      simp [dumps]
    rw [htext] at hfuel ⊢
    have hlength : 2 * (quote k ++ ':' :: ' ' ::
        (dumps fl w ++ (dumpsEntries fl es ++ '\x7d' :: r))).length < m := by
      rw [List.length_cons] at hfuel
      omega
    have hskip : ∀ rest, skipSpace (quote k ++ rest) = quote k ++ rest := fun _ => rfl
    have hhead : ∀ rest, (quote k ++ rest).head? ≠ some '\x7d' := fun _ h => nomatch h
    rw [scanValue_object, hskip, if_neg (hhead _), scanEntries_dumps k w es hw hes hlength, Option.map_some]
    dsimp only
    rw [Dict.entries_ofList hnames]
termination_by n

theorem scanItems_dumps {n : ℕ} (v : Json fl.Finite) (vs : List (Json fl.Finite)) (hv : v.Distinct)
    (hvs : DistinctItems vs)
    (hfuel : 2 * (dumps fl v ++ (dumpsItems fl vs ++ ']' :: r)).length < n) :
    scanItems fl n (dumps fl v ++ (dumpsItems fl vs ++ ']' :: r)) = some (v :: vs, r) := by
  obtain ⟨m, rfl⟩ : ∃ m, n = m + 1 := ⟨n - 1, by omega⟩
  have hread : ∀ {rest}, rest = dumpsItems fl vs ++ ']' :: r → Delimited rest →
      scanValue fl m (dumps fl v ++ rest) = some (v, rest) := by
    rintro rest rfl hrest
    exact scanValue_dumps v hv (by omega) hrest
  match vs, hvs with
  | [], _ =>
    exact scanItems_iff.mpr ⟨v, _, hread rfl (delimited_cons (.inr (.inl rfl)) r), .inl ⟨rfl, rfl⟩⟩
  | w :: ws, ⟨hw, hws⟩ =>
    have htext : dumpsItems fl (w :: ws) ++ ']' :: r =
        ',' :: ' ' :: (dumps fl w ++ (dumpsItems fl ws ++ ']' :: r)) := by
      simp [dumpsItems]
    rw [htext] at hfuel hread ⊢
    have hlength : 2 * (dumps fl w ++ (dumpsItems fl ws ++ ']' :: r)).length < m := by
      simp only [List.length_append, List.length_cons] at hfuel ⊢
      omega
    refine scanItems_iff.mpr ⟨v, _, hread rfl (delimited_cons (.inl rfl) _), .inr ⟨_, w :: ws, rfl, ?_, rfl⟩⟩
    rw [skipSpace_space, skipSpace_dumps]
    exact scanItems_dumps w ws hw hws hlength
termination_by n

theorem scanEntries_dumps {n : ℕ} (k : String) (v : Json fl.Finite)
    (es : List (String × Json fl.Finite)) (hv : v.Distinct) (hes : DistinctEntries es)
    (hfuel : 2 * (quote k ++
      ':' :: ' ' :: (dumps fl v ++ (dumpsEntries fl es ++ '\x7d' :: r))).length < n) :
    scanEntries fl n (quote k ++ ':' :: ' ' :: (dumps fl v ++ (dumpsEntries fl es ++ '\x7d' :: r))) =
      some ((k, v) :: es, r) := by
  obtain ⟨m, rfl⟩ : ∃ m, n = m + 1 := ⟨n - 1, by omega⟩
  have hread : ∀ {rest}, rest = dumpsEntries fl es ++ '\x7d' :: r → Delimited rest →
      scanValue fl m (skipSpace (' ' :: (dumps fl v ++ rest))) = some (v, rest) := by
    rintro rest rfl hrest
    rw [skipSpace_space, skipSpace_dumps]
    refine scanValue_dumps v hv ?_ hrest
    simp only [List.length_append, List.length_cons] at hfuel ⊢
    omega
  have hname : ∀ rest, scanString (k.toList.flatMap escape ++ ['"'] ++ rest) = some (k, rest) := by
    intro rest
    rw [List.append_assoc]
    exact scanString_escapes k rest
  match es, hes with
  | [], _ =>
    exact scanEntries_iff.mpr ⟨_, k, _, _, v, _, rfl, hname _, rfl,
      hread rfl (delimited_cons (.inr (.inr rfl)) r), .inl ⟨rfl, rfl⟩⟩
  | (k', w) :: es, ⟨hw, hes⟩ =>
    have htext : dumpsEntries fl ((k', w) :: es) ++ '\x7d' :: r =
        ',' :: ' ' :: (quote k' ++ ':' :: ' ' :: (dumps fl w ++ (dumpsEntries fl es ++ '\x7d' :: r))) := by
      simp [dumpsEntries]
    rw [htext] at hfuel hread ⊢
    have hlength : 2 * (quote k' ++ ':' :: ' ' ::
        (dumps fl w ++ (dumpsEntries fl es ++ '\x7d' :: r))).length < m := by
      simp only [List.length_append, List.length_cons] at hfuel ⊢
      omega
    refine scanEntries_iff.mpr ⟨_, k, _, _, v, _, rfl, hname _, rfl,
      hread rfl (delimited_cons (.inl rfl) _), .inr ⟨_, (k', w) :: es, rfl, ?_, rfl⟩⟩
    exact scanEntries_dumps k' w es hw hes hlength
termination_by n

end

theorem loads_dumps {v : Json fl.Finite} (h : v.Distinct) :
    loads fl (String.ofList (dumps fl v)) = some v := by
  have hend : Delimited [] := fun _ hc => nomatch hc
  have hread := scanValue_dumps v h le_rfl hend
  have hspace := skipSpace_dumps v []
  rw [List.append_nil] at hread hspace
  rw [loads, String.toList_ofList, hspace, hread]
  rfl

end

end Json
