import AlphaPanda.Exceptions
import AlphaPanda.Lib.Interleave
import AlphaPanda.Lib.Json
import Mathlib.Order.Lattice

/-!
# Replaying dead letters

`scripts/dlq_replay.py`: republish what a dead letter topic holds, and commit
each record once it is dealt with. The tool may be stopped at any point and
started again; it then goes on from the offsets that were committed.
-/

namespace AlphaPanda.DlqReplay

open Coroutine

/-- What Python makes of a JSON value: whether a float is true, and `str(v)`. -/
structure Builtins (F : Type) where
  floatTruthy : F → Bool
  text : Json F → String
  text_str : text (.str s) = s

structure Args where
  limit : ℤ := 0
  dryRun : Bool := false

/-- What the consumer holds: for each partition how far it has read, and the
count of the records it replayed. -/
structure State (π : Type) where
  position : π → ℕ
  processed : ℤ := 0

inductive Op (π F : Type) where
  | sendAndWait (topic : Json F) (key : String) (value : Json F)
  | print (topic key : Json F)
  | commit (offsets : π → ℕ)

abbrev Tool (π F : Type) := Prog (State π) (Op π F) Exc

-- ---------------------------------------------------------------------------
-- One record
-- ---------------------------------------------------------------------------

section
variable {π F : Type} (py : Builtins F)

def truthy : Json F → Bool
  | .null => false
  | .bool b => b
  | .int n => n ≠ 0
  | .float x => py.floatTruthy x
  | .nan | .infinity _ => true
  | .str s => s ≠ ""
  | .array items => !items.isEmpty
  | .object entries => !entries.isEmpty

/-- The entries of a dict; nothing else has a `get`. -/
def asDict : Json F → Except Exc (List (String × Json F))
  | .object entries => .ok entries
  | _ => .error ⟨"AttributeError", "object has no attribute 'get'", .builtin⟩

@[simp] theorem asDict_object (entries : List (String × Json F)) :
    asDict (.object entries) = .ok entries := rfl

def getD (entries : List (String × Json F)) (name : String) (default : Json F) : Json F :=
  (entries.lookup name).getD default

/-- What is to be republished of a dead letter. -/
structure Letter (F : Type) where
  topic : Json F
  key : Json F
  value : Json F

/-- The original message of a dead letter; `none` where it is malformed. -/
def readLetter (val : Json F) : Except Exc (Option (Letter F)) := do
  let top ← asDict (if truthy py val then val else .object [])
  let dlqMeta ← asDict (getD top "dlq_metadata" (.object []))
  let originalTopic := getD dlqMeta "original_topic" .null
  let originalMessage ← asDict (getD top "original_message" (.object []))
  match truthy py originalTopic, getD originalMessage "value" .null with
  | false, _ | true, .null => pure none
  | true, data => pure (some ⟨originalTopic, getD originalMessage "key" (.str ""), data⟩)

theorem readLetter_object {e : String × Json F} {entries dlqMeta originalMessage : List (String × Json F)}
    (hmeta : getD (e :: entries) "dlq_metadata" (.object []) = .object dlqMeta)
    (hmessage : getD (e :: entries) "original_message" (.object []) = .object originalMessage)
    (htopic : truthy py (getD dlqMeta "original_topic" .null) = true)
    (hvalue : getD originalMessage "value" .null ≠ .null) :
    readLetter py (.object (e :: entries)) =
      .ok (some ⟨getD dlqMeta "original_topic" .null, getD originalMessage "key" (.str ""),
        getD originalMessage "value" .null⟩) := by
  have htruthy : truthy py (.object (e :: entries)) = true := rfl
  simp only [readLetter, htruthy, if_true, asDict_object, bind, Except.bind, hmeta, hmessage, htopic]
  generalize getD originalMessage "value" .null = value at hvalue
  cases value with
  | null => exact absurd rfl hvalue
  | _ => rfl

def commit : Tool π F Unit := do
  let s ← get
  Prog.perform (.commit s.position)

/-- The body of the loop; whether the limit is reached. -/
def handle (args : Args) (val : Json F) : Tool π F Bool :=
  match readLetter py val with
  | .error e => throw e
  | .ok none => do
    commit
    pure false
  | .ok (some letter) => do
    if args.dryRun then Prog.perform (.print letter.topic letter.key)
    else Prog.perform (.sendAndWait letter.topic (py.text letter.key) letter.value)
    modify fun s => { s with processed := s.processed + 1 }
    commit
    let s ← get
    pure (args.limit ≠ 0 && args.limit ≤ s.processed)

variable [DecidableEq π]

/-- `replay(args)` on a topic, as its partitions are read from in turn. A
record is its value, or what decoding it raises. The tool is at its end when no
more records come, or waits for them. -/
def replay (topic : π → List (Except Exc (Json F))) (args : Args) : List π → Tool π F Unit
  | [] => pure ()
  | p :: ps => do
    let s ← get
    match (topic p)[s.position p]? with
    | none => replay topic args ps
    | some (.error e) => throw e
    | some (.ok val) => do
      set { s with position := Function.update s.position p (s.position p + 1) }
      let reached ← handle py args val
      if reached then pure () else replay topic args ps

def start (topic : π → List (Except Exc (Json F))) (committed : π → ℕ) (args : Args) (ps : List π)
    (as : List (Option Exc)) : Outcome (State π) (Op π F) Exc Unit :=
  (replay py topic args ps).exec as (World.start ⟨committed, 0⟩)

/-- The committed offsets, and all operations so far, after any number of uses
of the tool, each ended anywhere. A commit that failed may have been applied. -/
inductive Replayed (topic : π → List (Except Exc (Json F))) :
    (π → ℕ) → List (Op π F × Option Exc) → Prop
  | new : Replayed topic (fun _ => 0) []
  | use (h : Replayed topic committed ops) (args : Args) (ps : List π) (as : List (Option Exc))
    (hl : l <+: (start py topic committed args ps as).world.log)
    (hcommitted : committed' = committed ∨ ∃ r, (.commit committed', r) ∈ l) :
    Replayed topic committed' (ops ++ l)

-- ---------------------------------------------------------------------------
-- At least once
-- ---------------------------------------------------------------------------

/-- The record is malformed, or was published again, or printed in a dry run. -/
def Settled (ops : List (Op π F × Option Exc)) (record : Except Exc (Json F)) : Prop :=
  ∃ val letter?, record = .ok val ∧ readLetter py val = .ok letter? ∧ ∀ letter, letter? = some letter →
    (.sendAndWait letter.topic (py.text letter.key) letter.value, none) ∈ ops ∨
      (.print letter.topic letter.key, none) ∈ ops

/-- The records before the offsets are settled. -/
def Covered (topic : π → List (Except Exc (Json F))) (ops : List (Op π F × Option Exc))
    (offsets : π → ℕ) : Prop :=
  ∀ p i, i < offsets p → ∃ record, (topic p)[i]? = some record ∧ Settled py ops record

def CommitsCovered (topic : π → List (Except Exc (Json F))) (ops l : List (Op π F × Option Exc)) :
    Prop :=
  ∀ offsets r, (.commit offsets, r) ∈ l → Covered py topic (ops ++ l) offsets

end

section
variable {π F : Type} {py : Builtins F} {topic : π → List (Except Exc (Json F))}
  {ops ops' l : List (Op π F × Option Exc)}

theorem Settled.mono (h : Settled py ops record) (hsub : ops ⊆ ops') : Settled py ops' record := by
  obtain ⟨val, letter?, hval, hread, hall⟩ := h
  exact ⟨val, letter?, hval, hread, fun letter hl => (hall letter hl).imp (@hsub _) (@hsub _)⟩

theorem Covered.mono {offsets : π → ℕ} (h : Covered py topic ops offsets) (hsub : ops ⊆ ops') :
    Covered py topic ops' offsets := by
  intro p i hi
  obtain ⟨record, hrecord, hsettled⟩ := h p i hi
  exact ⟨record, hrecord, hsettled.mono hsub⟩

theorem append_subset_record (ops l : List (Op π F × Option Exc)) (x : Op π F × Option Exc) :
    ops ++ l ⊆ ops ++ (l ++ [x]) := by
  rw [← List.append_assoc]
  exact List.subset_append_left _ _

theorem CommitsCovered.record (h : CommitsCovered py topic ops l) {op : Op π F}
    (hop : ∀ offsets, op ≠ .commit offsets) (r : Option Exc) :
    CommitsCovered py topic ops (l ++ [(op, r)]) := by
  intro offsets r' hmem
  rcases List.mem_append.mp hmem with hmem | hmem
  · exact (h offsets r' hmem).mono (append_subset_record ops l _)
  · cases List.mem_singleton.mp hmem
    exact absurd rfl (hop offsets)

theorem CommitsCovered.commit {offsets : π → ℕ} (h : CommitsCovered py topic ops l)
    (hcovered : Covered py topic (ops ++ l) offsets) (r : Option Exc) :
    CommitsCovered py topic ops (l ++ [(.commit offsets, r)]) := by
  intro offsets' r' hmem
  rcases List.mem_append.mp hmem with hmem | hmem
  · exact (h offsets' r' hmem).mono (append_subset_record ops l _)
  · cases List.mem_singleton.mp hmem
    exact hcovered.mono (append_subset_record ops l _)

abbrev alone : World (State π) (Op π F) Exc → World (State π) (Op π F) Exc → Prop := fun w w' => w' = w

abbrev Safe (py : Builtins F) (topic : π → List (Except Exc (Json F)))
    (ops : List (Op π F × Option Exc)) (w : World (State π) (Op π F) Exc) : Prop :=
  CommitsCovered py topic ops w.log

theorem commit_meets {w₀ w : World (State π) (Op π F) Exc} (h : Safe py topic ops w)
    (hcovered : Covered py topic (ops ++ w.log) w.st.position) :
    (commit : Tool π F Unit).Meets alone (fun _ => Safe py topic ops)
      (fun r _ w' => Safe py topic ops w' ∧ w'.st = w.st ∧
        (r = .ok () → Covered py topic (ops ++ w'.log) w'.st.position)) w₀ w := by
  simp only [commit, meets_bind, meets_get, meets_perform]
  refine ⟨h, ?_⟩
  rintro w rfl
  have hnext := hcovered.mono (append_subset_record ops w.log (.commit w.st.position, none))
  exact ⟨⟨h.commit hcovered none, rfl, fun _ => hnext⟩,
    fun e => ⟨h.commit hcovered (some e), rfl, fun hr => by cases hr⟩⟩

/-- The body of the loop on a record that was read: it is settled before
anything is committed. -/
theorem handle_meets {val : Json F} {w₀ w : World (State π) (Op π F) Exc} (args : Args)
    (h : Safe py topic ops w)
    (hcovered : ∀ l, ops ++ w.log ⊆ l → Settled py l (.ok val) → Covered py topic l w.st.position) :
    (handle py args val).Meets alone (fun _ => Safe py topic ops)
      (fun r _ w' => Safe py topic ops w' ∧
        (r.toBool → Covered py topic (ops ++ w'.log) w'.st.position)) w₀ w := by
  unfold handle
  split
  · exact ⟨h, fun hr => by cases hr⟩
  · rename_i hread
    have hsettled : Settled py (ops ++ w.log) (.ok val) :=
      ⟨val, none, rfl, hread, fun _ hsome => by cases hsome⟩
    rw [meets_bind]
    refine (commit_meets h (hcovered _ (List.Subset.refl _) hsettled)).mono ?_
    rintro (e | _) _ w' ⟨hsafe, -, hafter⟩
    · exact ⟨hsafe, fun hr => by cases hr⟩
    · exact ⟨hsafe, fun _ => hafter rfl⟩
  · rename_i letter hread
    -- After the operation that deals with the letter comes the commit.
    have hrest : ∀ op : Op π F, (∀ offsets, op ≠ .commit offsets) →
        (op = .sendAndWait letter.topic (py.text letter.key) letter.value ∨
          op = .print letter.topic letter.key) →
        ((Prog.perform op >>= fun _ => (do
          modify fun s => { s with processed := s.processed + 1 }
          commit
          let s ← get
          pure (decide (args.limit ≠ 0) && decide (args.limit ≤ s.processed)) : Tool π F Bool))).Meets
            alone (fun _ => Safe py topic ops) (fun r _ w' => Safe py topic ops w' ∧
              (r.toBool → Covered py topic (ops ++ w'.log) w'.st.position)) w₀ w := by
      intro op hop hletter
      simp only [meets_bind, meets_perform, meets_modify, meets_get, meets_pure]
      refine ⟨h, ?_⟩
      rintro w rfl
      refine ⟨?_, fun e => ⟨h.record hop (some e), fun hr => by cases hr⟩⟩
      have hmem : (op, none) ∈ ops ++ (w.log ++ [(op, none)]) := by simp
      have hsettled : Settled py (ops ++ (w.log ++ [(op, none)])) (.ok val) := by
        refine ⟨val, some letter, rfl, hread, ?_⟩
        rintro _ ⟨⟩
        rcases hletter with rfl | rfl
        · exact .inl hmem
        · exact .inr hmem
      have hnext := hcovered _ (append_subset_record ops w.log (op, none)) hsettled
      refine (commit_meets (h.record hop none) hnext).mono ?_
      rintro (e | _) _ w' ⟨hsafe, -, hafter⟩
      · exact ⟨hsafe, fun hr => by cases hr⟩
      · exact ⟨hsafe, fun _ => hafter rfl⟩
    split
    · exact hrest _ (fun _ heq => by cases heq) (.inr rfl)
    · exact hrest _ (fun _ heq => by cases heq) (.inl rfl)

variable [DecidableEq π]

theorem covered_update {offsets : π → ℕ} {p : π} (h : Covered py topic ops offsets)
    (hrecord : (topic p)[offsets p]? = some record) (hsettled : Settled py ops record) :
    Covered py topic ops (Function.update offsets p (offsets p + 1)) := by
  intro q i hi
  by_cases hq : q = p
  · subst hq
    rw [Function.update_self] at hi
    rcases Nat.lt_succ_iff_lt_or_eq.mp hi with hlt | rfl
    · exact h q i hlt
    · exact ⟨record, hrecord, hsettled⟩
  · rw [Function.update_of_ne hq] at hi
    exact h q i hi

theorem replay_meets (args : Args) (ps : List π) {w₀ w : World (State π) (Op π F) Exc}
    (h : Safe py topic ops w) (hcovered : Covered py topic (ops ++ w.log) w.st.position) :
    (replay py topic args ps).Meets alone (fun _ => Safe py topic ops)
      (fun _ _ => Safe py topic ops) w₀ w := by
  induction ps generalizing w₀ w with
  | nil => exact h
  | cons p ps ih =>
    simp only [replay, meets_bind, meets_get]
    split
    · exact ih h hcovered
    · exact h
    rename_i val hval
    simp only [meets_bind, meets_set]
    have hread : ∀ l, ops ++ w.log ⊆ l → Settled py l (.ok val) →
        Covered py topic l (Function.update w.st.position p (w.st.position p + 1)) :=
      fun l hsub hsettled => covered_update (hcovered.mono hsub) hval hsettled
    refine (handle_meets args (w := ⟨{ w.st with
      position := Function.update w.st.position p (w.st.position p + 1) }, w.log⟩) h hread).mono ?_
    rintro (e | reached) w₁ w₂ ⟨hsafe, hafter⟩
    · exact hsafe
    dsimp only
    split
    · exact hsafe
    · exact ih hsafe (hafter rfl)

/-- No dead letter is lost: each record before a committed offset is malformed,
or it was published again or printed, in every run of uses of the tool that
fail or are stopped at any point. -/
theorem replayed_at_least_once (h : Replayed py topic committed ops) :
    Covered py topic ops committed := by
  induction h with
  | new => exact fun p i hi => absurd hi (Nat.not_lt_zero i)
  | @use committed ops l committed' h args ps as hl hcommitted ih =>
    have hstart : Covered py topic (ops ++ []) committed := by
      rw [List.append_nil]
      exact ih
    have hmeets : (replay py topic args ps).Meets alone (fun _ => Safe py topic ops)
        (fun _ _ => Safe py topic ops) (World.start ⟨committed, 0⟩) (World.start ⟨committed, 0⟩) :=
      replay_meets args ps (fun _ _ hmem => by cases hmem) hstart
    obtain ⟨s, hsafe⟩ := hmeets.always as List.nil_prefix hl
    rcases hcommitted with rfl | ⟨r, hmem⟩
    · exact ih.mono (List.subset_append_left _ _)
    · exact hsafe committed' r hmem

end

def oneLetter : Unit → List (Except Exc (Json Empty)) := fun _ =>
  [.ok (.object [("dlq_metadata", .object [("original_topic", .str "paper.signals.raw")]),
    ("original_message", .object [("key", .str "s1:1"), ("value", .object [("id", .str "e1")])])])]

def plainBuiltins : Builtins Empty where
  floatTruthy := nofun
  text
    | .str s => s
    | _ => ""
  text_str := rfl

/-- The tool is stopped before its first commit, and used again. -/
theorem stopped_at_least_once : ∃ committed ops, Replayed plainBuiltins oneLetter committed ops ∧
    committed () = 1 ∧ Covered plainBuiltins oneLetter ops committed := by
  have hnew : Replayed plainBuiltins oneLetter (fun _ => 0) [] := .new
  have hstopped := hnew.use {} [()] [] (List.take_prefix 1 _) (.inl rfl)
  have hagain := hstopped.use {} [()] [] (List.prefix_refl _)
    (.inr ⟨none, List.mem_cons_of_mem _ List.mem_cons_self⟩)
  exact ⟨_, _, hagain, rfl, replayed_at_least_once hagain⟩

-- ---------------------------------------------------------------------------
-- One use in which nothing fails
-- ---------------------------------------------------------------------------

section
variable {π F : Type} {py : Builtins F} {topic : π → List (Except Exc (Json F))}

def reads [DecidableEq π] (topic : π → List (Except Exc (Json F))) : (π → ℕ) → List π → List (Except Exc (Json F))
  | _, [] => []
  | position, p :: ps =>
    match (topic p)[position p]? with
    | none => reads topic position ps
    | some record => record :: reads topic (Function.update position p (position p + 1)) ps

def letterOf (py : Builtins F) : Except Exc (Json F) → Option (Letter F)
  | .ok val =>
    match readLetter py val with
    | .ok letter? => letter?
    | .error _ => none
  | .error _ => none

def sent (log : List (Op π F × Option Exc)) : List (Json F × String × Json F) :=
  log.filterMap fun
    | (.sendAndWait topic key value, none) => some (topic, key, value)
    | _ => none

def Letter.sent (py : Builtins F) (letter : Letter F) : Json F × String × Json F :=
  (letter.topic, py.text letter.key, letter.value)

/-- The letters up to the limit, after `n`. -/
def upTo (limit n : ℤ) (letters : List (Letter F)) : List (Letter F) :=
  if limit = 0 then letters else letters.take (limit - n).toNat

theorem upTo_cons (letter : Letter F) (letters : List (Letter F))
    (hn : limit = 0 ∨ n < limit) : upTo limit n (letter :: letters) =
      letter :: if limit ≠ 0 ∧ limit ≤ n + 1 then [] else upTo limit (n + 1) letters := by
  unfold upTo
  by_cases h0 : limit = 0
  · simp [h0]
  obtain ⟨m, hm⟩ : ∃ m : ℕ, (limit - n).toNat = m + 1 := ⟨(limit - n).toNat - 1, by omega⟩
  have hrest : (limit - (n + 1)).toNat = m := by omega
  rw [if_neg h0, if_neg h0, hm, hrest, List.take_succ_cons]
  split
  · obtain rfl : m = 0 := by omega
    rw [List.take_zero]
  · rfl

theorem sent_append (l l' : List (Op π F × Option Exc)) : sent (l ++ l') = sent l ++ sent l' :=
  List.filterMap_append

theorem handle_exec_malformed (args : Args) (hread : readLetter py val = .ok none)
    (w : World (State π) (Op π F) Exc) :
    (handle py args val).exec [] w =
      ⟨.ok false, w.record (.commit w.st.position) none, []⟩ := by
  simp only [handle, hread, commit, exec_bind, exec_get, exec_perform, exec_pure, Outcome.andThen_ok,
    List.headD_nil, List.tail_nil]

theorem handle_exec_letter {args : Args} (hdry : args.dryRun = false)
    (hread : readLetter py val = .ok (some letter)) (w : World (State π) (Op π F) Exc) :
    (handle py args val).exec [] w =
      ⟨.ok (args.limit ≠ 0 && args.limit ≤ w.st.processed + 1),
        ⟨{ w.st with processed := w.st.processed + 1 },
          w.log ++ [(.sendAndWait letter.topic (py.text letter.key) letter.value, none),
            (.commit w.st.position, none)]⟩, []⟩ := by
  simp only [handle, hread, hdry, commit, exec_bind, exec_get, exec_perform, exec_modify, exec_pure,
    Outcome.andThen_ok, List.headD_nil, List.tail_nil, World.record, Bool.false_eq_true, if_false,
    List.append_assoc, List.singleton_append]

theorem replay_sent [DecidableEq π] {args : Args} (hdry : args.dryRun = false) (ps : List π)
    (position : π → ℕ) (n : ℤ) (hn : args.limit = 0 ∨ n < args.limit) (l : List (Op π F × Option Exc))
    (hwell : ∀ record ∈ reads topic position ps,
      ∃ val letter?, record = .ok val ∧ readLetter py val = .ok letter?) :
    sent ((replay py topic args ps).exec [] ⟨⟨position, n⟩, l⟩).world.log =
      sent l ++ (upTo args.limit n ((reads topic position ps).filterMap (letterOf py))).map
        (Letter.sent py) := by
  induction ps generalizing position n l with
  | nil => simp [replay, reads, upTo]
  | cons p ps ih =>
    simp only [replay, reads, exec_bind, exec_get, Outcome.andThen_ok] at hwell ⊢
    rcases hrecord : (topic p)[position p]? with _ | record
    · simp only [hrecord] at hwell
      exact ih position n hn l hwell
    simp only [hrecord, List.mem_cons, forall_eq_or_imp] at hwell
    obtain ⟨⟨val, letter?, rfl, hread⟩, hrest⟩ := hwell
    simp only [exec_bind, exec_set, Outcome.andThen_ok]
    have hletter : letterOf py (.ok val) = letter? := by
      simp only [letterOf, hread]
    rw [List.filterMap_cons, hletter]
    rcases letter? with _ | letter
    · rw [handle_exec_malformed args hread]
      have hnext := ih _ n hn (l ++ [(.commit (Function.update position p (position p + 1)), none)]) hrest
      rw [sent_append] at hnext
      exact hnext.trans (by simp [sent])
    · rw [handle_exec_letter hdry hread, upTo_cons letter _ hn]
      by_cases hreached : args.limit ≠ 0 ∧ args.limit ≤ n + 1
      · have hstop : (decide (args.limit ≠ 0) && decide (args.limit ≤ n + 1)) = true := by
          simpa using hreached
        simp only [Outcome.andThen_ok, hstop, if_true, exec_pure, if_pos hreached, sent_append]
        rfl
      · have hgo : (decide (args.limit ≠ 0) && decide (args.limit ≤ n + 1)) = false := by
          simpa using hreached
        have hnext := ih (Function.update position p (position p + 1)) (n + 1) (by omega)
          (l ++ [(.sendAndWait letter.topic (py.text letter.key) letter.value, none),
            (.commit (Function.update position p (position p + 1)), none)]) hrest
        simp only [Outcome.andThen_ok, hgo, Bool.false_eq_true, if_false, if_neg hreached]
        rw [hnext, sent_append, List.append_assoc]
        rfl

/-- One use in which nothing fails publishes the letters that it reads, in
their order and each once, up to the limit.

Premise: none of the records that it reads makes it raise. -/
theorem replays_in_order [DecidableEq π] (py : Builtins F) (topic : π → List (Except Exc (Json F)))
    (committed : π → ℕ) {args : Args} {ps : List π} (hdry : args.dryRun = false)
    (hlimit : 0 ≤ args.limit) (hwell : ∀ record ∈ reads topic committed ps,
      ∃ val letter?, record = .ok val ∧ readLetter py val = .ok letter?) :
    sent (start py topic committed args ps []).world.log =
      (upTo args.limit 0 ((reads topic committed ps).filterMap (letterOf py))).map (Letter.sent py) := by
  have hn : args.limit = 0 ∨ 0 < args.limit := by omega
  exact replay_sent hdry ps committed 0 hn [] hwell

end

theorem oneLetter_in_order :
    sent (start plainBuiltins oneLetter (fun _ => 0) {} [(), ()] []).world.log =
      (upTo 0 0 ((reads oneLetter (fun _ => 0) [(), ()]).filterMap (letterOf plainBuiltins))).map
        (Letter.sent plainBuiltins) := by
  refine replays_in_order plainBuiltins oneLetter (fun _ => 0) rfl le_rfl fun record hrecord => ?_
  cases List.mem_singleton.mp hrecord
  exact ⟨_, _, rfl, rfl⟩

end AlphaPanda.DlqReplay
