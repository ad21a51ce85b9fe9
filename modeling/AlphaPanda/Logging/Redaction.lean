import Mathlib.Data.List.Basic

/-!
# Redaction of log events

`redact_sensitive`: it masks what stands under the keys to redact, in dicts and
lists of any depth. A key is lowered before it is compared, the configured
names are not; and a tuple is left as it is.
-/

namespace AlphaPanda.Logging

/-- `str.lower` -/
structure Lowering where
  lower : String → String
  lower_lower : ∀ s, lower (lower s) = lower s

theorem toLower_toLower (c : Char) : c.toLower.toLower = c.toLower := by
  delta Char.toLower
  split
  · rename_i h
    refine dif_neg fun h' => ?_
    simp only [ge_iff_le, UInt32.le_iff_toNat_le, UInt32.toNat_add] at h h'
    have hlow : 'A'.val.toNat = 65 := rfl
    have hhigh : 'Z'.val.toNat = 90 := rfl
    have hgap : ('a'.val - 'A'.val).toNat = 32 := rfl
    omega
  · rfl

def Lowering.ascii : Lowering where
  lower s := String.ofList (s.toList.map Char.toLower)
  lower_lower s := by
    simp only [String.toList_ofList, List.map_map]
    congr 2
    exact funext toLower_toLower

-- ---------------------------------------------------------------------------
-- Events
-- ---------------------------------------------------------------------------

/-- A key of a dict: a string, or some other hashable object. -/
inductive Key (α : Type) where
  | str (s : String)
  | other (a : α)

/-- The objects in an event dict; `α` is what is neither a string nor a container. -/
inductive Obj (α : Type) where
  | str (s : String)
  | other (a : α)
  | dict (entries : List (Key α × Obj α))
  | list (items : List (Obj α))
  | tuple (items : List (Obj α))

def Obj.redacted : Obj α := .str "[REDACTED]"

def defaultKeys : List String :=
  ["authorization", "access_token", "refresh_token", "api_key", "api-secret", "api_secret",
   "password", "secret", "token", "set-cookie"]

def keysToRedact : Option (List String) → List String
  | none | some [] => defaultKeys
  | some configured => configured

@[simp] theorem keysToRedact_cons (name : String) (names : List String) :
    keysToRedact (some (name :: names)) = name :: names := rfl

section
variable (lw : Lowering) (keys : List String)

def masked : Key α → Bool
  | .str k => lw.lower k ∈ keys
  | .other _ => false

mutual

def redact : Obj α → Obj α
  | .dict entries => .dict (redactEntries entries)
  | .list items => .list (redactItems items)
  | .tuple items => .tuple items
  | .str s => .str s
  | .other a => .other a

def redactEntries : List (Key α × Obj α) → List (Key α × Obj α)
  | [] => []
  | (k, v) :: rest =>
    (k, if masked lw keys k then .redacted else redact v) :: redactEntries rest

def redactItems : List (Obj α) → List (Obj α)
  | [] => []
  | v :: rest => redact v :: redactItems rest

end

end

def redactSensitive (lw : Lowering) (configured : Option (List String)) (event : Obj α) : Obj α :=
  redact lw (keysToRedact configured) event

-- ---------------------------------------------------------------------------
-- What is sensitive
-- ---------------------------------------------------------------------------

/-- Stored under a key, at some depth. -/
inductive Stored : Obj α → Key α → Obj α → Prop
  | here : (k, v) ∈ entries → Stored (.dict entries) k v
  | entry : (k', o) ∈ entries → Stored o k v → Stored (.dict entries) k v
  | item : o ∈ items → Stored o k v → Stored (.list items) k v
  | member : o ∈ items → Stored o k v → Stored (.tuple items) k v

section
variable (lw : Lowering) (keys : List String)

/-- A key that equals one of the names ignoring case. -/
def Sensitive : Key α → Prop
  | .str k => ∃ name ∈ keys, lw.lower name = lw.lower k
  | .other _ => False

def Hidden (o : Obj α) : Prop := ∀ k v, Stored o k v → Sensitive lw keys k → v = .redacted

mutual

def Agrees : Obj α → Obj α → Prop
  | .str s, .str t => s = t
  | .other a, .other b => a = b
  | .dict es, .dict es' => AgreesEntries es es'
  | .list vs, .list vs' => AgreesItems vs vs'
  | .tuple vs, .tuple vs' => AgreesItems vs vs'
  | _, _ => False

def AgreesEntries : List (Key α × Obj α) → List (Key α × Obj α) → Prop
  | [], [] => True
  | (k, v) :: es, (k', v') :: es' =>
    k = k' ∧ (¬Sensitive lw keys k → Agrees v v') ∧ AgreesEntries es es'
  | _, _ => False

def AgreesItems : List (Obj α) → List (Obj α) → Prop
  | [], [] => True
  | v :: vs, v' :: vs' => Agrees v v' ∧ AgreesItems vs vs'
  | _, _ => False

end

mutual

/-- What stands under a sensitive key, and is not masked already, has a key
that is lowered to one of the names as they are configured, and is in no tuple. -/
def Covered : Obj α → Prop
  | .dict es => CoveredEntries es
  | .list vs => CoveredItems vs
  | .tuple vs => Hidden lw keys (.tuple vs)
  | .str _ | .other _ => True

def CoveredEntries : List (Key α × Obj α) → Prop
  | [] => True
  | (k, v) :: es =>
    (masked lw keys k ∨ (Sensitive lw keys k → v = .redacted) ∧ Covered v) ∧ CoveredEntries es

def CoveredItems : List (Obj α) → Prop
  | [] => True
  | v :: vs => Covered v ∧ CoveredItems vs

end

end

-- ---------------------------------------------------------------------------
-- What redaction keeps and hides
-- ---------------------------------------------------------------------------

section
variable {lw : Lowering} {keys : List String}

theorem sensitive_of_masked {k : Key α} (h : masked lw keys k) : Sensitive lw keys k := by
  cases k with
  | str s => exact ⟨lw.lower s, by simpa [masked] using h, lw.lower_lower s⟩
  | other a => cases h

mutual

theorem agrees_refl : (o : Obj α) → Agrees lw keys o o
  | .str _ => rfl
  | .other _ => rfl
  | .dict es => agreesEntries_refl es
  | .list vs => agreesItems_refl vs
  | .tuple vs => agreesItems_refl vs

theorem agreesEntries_refl : (es : List (Key α × Obj α)) → AgreesEntries lw keys es es
  | [] => trivial
  | (_, v) :: es => ⟨rfl, fun _ => agrees_refl v, agreesEntries_refl es⟩

theorem agreesItems_refl : (vs : List (Obj α)) → AgreesItems lw keys vs vs
  | [] => trivial
  | v :: vs => ⟨agrees_refl v, agreesItems_refl vs⟩

end

mutual

theorem redact_agrees : (o : Obj α) → Agrees lw keys o (redact lw keys o)
  | .str _ => rfl
  | .other _ => rfl
  | .dict es => redactEntries_agrees es
  | .list vs => redactItems_agrees vs
  | .tuple vs => agreesItems_refl vs

theorem redactEntries_agrees :
    (es : List (Key α × Obj α)) → AgreesEntries lw keys es (redactEntries lw keys es)
  | [] => trivial
  | (k, v) :: es => by
    refine ⟨rfl, fun hk => ?_, redactEntries_agrees es⟩
    rw [if_neg fun h => hk (sensitive_of_masked h)]
    exact redact_agrees v

theorem redactItems_agrees : (vs : List (Obj α)) → AgreesItems lw keys vs (redactItems lw keys vs)
  | [] => trivial
  | v :: vs => ⟨redact_agrees v, redactItems_agrees vs⟩

end

theorem hidden_str (s : String) : Hidden lw keys (.str s : Obj α) := fun _ _ h => nomatch h

theorem hidden_other (a : α) : Hidden lw keys (.other a) := fun _ _ h => nomatch h

theorem hidden_dict : Hidden lw keys (.dict es : Obj α) ↔
    ∀ e ∈ es, (Sensitive lw keys e.1 → e.2 = .redacted) ∧ Hidden lw keys e.2 := by
  constructor
  · intro h e he
    exact ⟨h e.1 e.2 (.here he), fun k v hstored => h k v (.entry he hstored)⟩
  · intro h k v hstored
    cases hstored with
    | here he => exact (h _ he).1
    | entry he hstored => exact (h _ he).2 k v hstored

theorem hidden_list : Hidden lw keys (.list vs : Obj α) ↔ ∀ v ∈ vs, Hidden lw keys v := by
  constructor
  · intro h v hv k w hstored
    exact h k w (.item hv hstored)
  · rintro h k w (_ | _ | ⟨hv, hstored⟩)
    exact h _ hv k w hstored

theorem redact_eq_redacted (o : Obj α) : redact lw keys o = .redacted ↔ o = .redacted := by
  cases o <;> simp [redact, Obj.redacted]

mutual

theorem hidden_redact : (o : Obj α) → (Hidden lw keys (redact lw keys o) ↔ Covered lw keys o)
  | .str s => iff_of_true (hidden_str s) trivial
  | .other a => iff_of_true (hidden_other a) trivial
  | .dict es => hidden_dict.trans (hidden_redactEntries es)
  | .list vs => hidden_list.trans (hidden_redactItems vs)
  | .tuple _ => Iff.rfl

theorem hidden_redactEntries : (es : List (Key α × Obj α)) →
    ((∀ e ∈ redactEntries lw keys es,
      (Sensitive lw keys e.1 → e.2 = .redacted) ∧ Hidden lw keys e.2) ↔ CoveredEntries lw keys es)
  | [] => by simp [redactEntries, CoveredEntries]
  | (k, v) :: es => by
    rw [redactEntries, List.forall_mem_cons, hidden_redactEntries es, CoveredEntries]
    refine and_congr_left fun _ => ?_
    by_cases hk : masked lw keys k
    · rw [if_pos hk]
      exact iff_of_true ⟨fun _ => rfl, hidden_str _⟩ (.inl hk)
    · rw [if_neg hk, hidden_redact v, or_iff_right hk, redact_eq_redacted]

theorem hidden_redactItems : (vs : List (Obj α)) →
    ((∀ v ∈ redactItems lw keys vs, Hidden lw keys v) ↔ CoveredItems lw keys vs)
  | [] => by simp [redactItems, CoveredItems]
  | v :: vs => by
    rw [redactItems, List.forall_mem_cons, hidden_redact v, hidden_redactItems vs, CoveredItems]

end

/-- Redaction never changes what is not under a sensitive key, and hides what is
under one exactly where the event is covered. -/
theorem redactSensitive_complete_iff (lw : Lowering) (name : String) (names : List String)
    (event : Obj α) :
    (Hidden lw (name :: names) (redactSensitive lw (some (name :: names)) event) ∧
        Agrees lw (name :: names) event (redactSensitive lw (some (name :: names)) event)) ↔
      Covered lw (name :: names) event := by
  rw [redactSensitive, keysToRedact_cons, and_iff_left (redact_agrees event)]
  exact hidden_redact event

/-- A tuple hides nothing, and a name with a capital letter matches no key. -/
theorem redactSensitive_leaks :
    ¬Hidden .ascii ["password"] (redactSensitive .ascii (some ["password"])
        (.dict [(.str "users", .tuple [.dict [(.str "password", .str "hunter2")]])] : Obj Unit)) ∧
      ¬Hidden .ascii ["Authorization"] (redactSensitive .ascii (some ["Authorization"])
        (.dict [(.str "Authorization", .str "Bearer hunter2")] : Obj Unit)) := by
  constructor
  · intro h
    have hstored := h (.str "password") (.str "hunter2")
      (.entry List.mem_cons_self (.member List.mem_cons_self (.here List.mem_cons_self)))
      ⟨"password", List.mem_cons_self, rfl⟩
    simp [Obj.redacted] at hstored
  · intro h
    have hkept : masked .ascii ["Authorization"] (.str "Authorization" : Key Unit) = false := by
      decide +kernel
    have hstored := h (.str "Authorization") (.str "Bearer hunter2")
      (.here (by simp [redactEntries, redact, hkept]))
      ⟨"Authorization", List.mem_cons_self, rfl⟩
    simp [Obj.redacted] at hstored

theorem masked_of_sensitive {k : Key α} (hkeys : ∀ name ∈ keys, lw.lower name = name)
    (h : Sensitive lw keys k) : masked lw keys k := by
  cases k with
  | str s =>
    obtain ⟨name, hname, heq⟩ := h
    rw [hkeys name hname] at heq
    simpa [masked, ← heq] using hname
  | other a => exact h.elim

mutual

def TupleFree : Obj α → Prop
  | .dict es => TupleFreeEntries es
  | .list vs => TupleFreeItems vs
  | .tuple _ => False
  | .str _ | .other _ => True

def TupleFreeEntries : List (Key α × Obj α) → Prop
  | [] => True
  | (_, v) :: es => TupleFree v ∧ TupleFreeEntries es

def TupleFreeItems : List (Obj α) → Prop
  | [] => True
  | v :: vs => TupleFree v ∧ TupleFreeItems vs

end

mutual

theorem covered_of_tupleFree (hkeys : ∀ name ∈ keys, lw.lower name = name) :
    (o : Obj α) → TupleFree o → Covered lw keys o
  | .str _, _ => trivial
  | .other _, _ => trivial
  | .dict es, h => coveredEntries_of_tupleFree hkeys es h
  | .list vs, h => coveredItems_of_tupleFree hkeys vs h
  | .tuple _, h => h.elim

theorem coveredEntries_of_tupleFree (hkeys : ∀ name ∈ keys, lw.lower name = name) :
    (es : List (Key α × Obj α)) → TupleFreeEntries es → CoveredEntries lw keys es
  | [], _ => trivial
  | (k, v) :: es, h => by
    refine ⟨?_, coveredEntries_of_tupleFree hkeys es h.2⟩
    by_cases hk : Sensitive lw keys k
    · exact .inl (masked_of_sensitive hkeys hk)
    · exact .inr ⟨fun hk' => absurd hk' hk, covered_of_tupleFree hkeys v h.1⟩

theorem coveredItems_of_tupleFree (hkeys : ∀ name ∈ keys, lw.lower name = name) :
    (vs : List (Obj α)) → TupleFreeItems vs → CoveredItems lw keys vs
  | [], _ => trivial
  | v :: vs, h => ⟨covered_of_tupleFree hkeys v h.1, coveredItems_of_tupleFree hkeys vs h.2⟩

end

end

end AlphaPanda.Logging
