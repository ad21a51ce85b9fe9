import AlphaPanda.Lib.JsonRoundTrip

/-!
# Reading JSON

Every value that is read leaves a shorter text, so the fuel of `loads` never
decides. A string is never what it is read as: its quotes are gone.
-/

namespace Json

section
variable {fl : Floats}

-- ---------------------------------------------------------------------------
-- What is read is shorter
-- ---------------------------------------------------------------------------

theorem length_joinUnits (us : List ℕ) : (joinUnits us).length ≤ us.length := by
  fun_induction joinUnits us with
  | case1 => exact le_rfl
  | case2 n => exact le_rfl
  | case3 h l us _ ih =>
    simp only [List.length_cons] at ih ⊢
    omega
  | case4 h l us _ ih =>
    simp only [List.length_cons] at ih ⊢
    omega

theorem scanUnits_shorter (h : scanUnits cs = some (us, rest)) : us.length + rest.length < cs.length := by
  fun_induction scanUnits cs generalizing us with
  | case1 => cases h
  | case2 cs =>
    cases h
    simp
  | case3 a b c d cs ih | case4 c cs _ ih | case5 c cs _ _ _ ih =>
    obtain ⟨n, -, h⟩ := Option.bind_eq_some_iff.mp h
    obtain ⟨⟨us', rest'⟩, hrest, heq⟩ := Option.bind_eq_some_iff.mp h
    cases heq
    have hshorter := ih hrest
    simp only [List.length_cons]
    omega

theorem scanString_shorter (h : scanString cs = some (s, rest)) :
    s.toList.length + rest.length < cs.length := by
  obtain ⟨⟨us, rest'⟩, hunits, heq⟩ := Option.map_eq_some_iff.mp h
  obtain ⟨rfl, rfl⟩ := Prod.mk.inj heq
  have hjoin := length_joinUnits us
  have hshorter := scanUnits_shorter hunits
  rw [String.toList_ofList]
  omega

theorem length_dropWhile (p : Char → Bool) (cs : List Char) : (cs.dropWhile p).length ≤ cs.length :=
  (List.dropWhile_sublist p).length_le

theorem scanInt_shorter (h : scanInt cs = some (ds, r)) : r.length < cs.length := by
  unfold scanInt at h
  split at h
  · cases h
  · cases h
    exact Nat.lt_succ_self _
  · split at h
    · cases h
      exact Nat.lt_succ_of_le (length_dropWhile _ _)
    · cases h

theorem length_scanFrac (cs : List Char) : (scanFrac cs).2.length ≤ cs.length := by
  unfold scanFrac
  split
  · split
    · exact le_rfl
    · exact (length_dropWhile _ _).trans (Nat.le_succ _)
  · exact le_rfl

theorem length_scanSign (cs : List Char) : (scanSign cs).2.length ≤ cs.length := by
  unfold scanSign
  split
  · exact Nat.le_succ _
  · exact Nat.le_succ _
  · exact le_rfl

theorem length_scanExp (cs : List Char) : (scanExp cs).2.length ≤ cs.length := by
  cases cs with
  | nil => exact le_rfl
  | cons c cs =>
    unfold scanExp
    dsimp only
    split
    · exact (length_dropWhile _ _).trans ((length_scanSign cs).trans (Nat.le_succ _))
    · exact le_rfl

theorem length_scanMinus (cs : List Char) : (scanMinus cs).2.length ≤ cs.length := by
  unfold scanMinus
  split
  · exact Nat.le_succ _
  · exact le_rfl

theorem scanNumber_shorter (h : scanNumber cs = some (t, r)) : r.length < cs.length := by
  obtain ⟨⟨digits, rest⟩, hint, heq⟩ := Option.bind_eq_some_iff.mp h
  cases heq
  calc (scanExp (scanFrac rest).2).2.length
    _ ≤ (scanFrac rest).2.length := length_scanExp _
    _ ≤ rest.length := length_scanFrac _
    _ < (scanMinus cs).2.length := scanInt_shorter hint
    _ ≤ cs.length := length_scanMinus _

theorem scanAtom_shorter {v : Json fl.Finite} (h : scanAtom fl cs = some (v, r)) :
    r.length < cs.length := by
  unfold scanAtom at h
  split at h
  · rename_i w v' hfind
    have hstart : w.toList <+: cs := by simpa using List.find?_some hfind
    have hle := hstart.length_le
    have hlength : ∀ w ∈ ["null", "true", "false", "NaN", "Infinity", "-Infinity"],
        0 < w.toList.length := by decide +kernel
    have hpos := hlength w (words_names (List.mem_of_find?_eq_some hfind))
    cases h
    rw [List.length_drop]
    omega
  · obtain ⟨⟨t, rest⟩, hnumber, heq⟩ := Option.map_eq_some_iff.mp h
    cases heq
    exact scanNumber_shorter hnumber

-- ---------------------------------------------------------------------------
-- The fuel never decides
-- ---------------------------------------------------------------------------

/-- What is read leaves a shorter text, and is read with any fuel of `k` or more. -/
def Settled (scan : ℕ → List Char → Option (α × List Char)) (cs : List Char) (k : ℕ) (a : α)
    (r : List Char) : Prop :=
  r.length < cs.length ∧ ∀ m, k ≤ m → scan m cs = some (a, r)

theorem settled_succ (hshort : r.length < cs.length)
    (hmore : ∀ m, k ≤ m → scan (m + 1) cs = some (a, r)) : Settled scan cs (k + 1) a r := by
  refine ⟨hshort, fun m hm => ?_⟩
  obtain ⟨m, rfl⟩ : ∃ m', m = m' + 1 := ⟨m - 1, by omega⟩
  exact hmore m (by omega)

theorem length_skipSpace (h : skipSpace cs = c :: cs') : cs'.length < cs.length := by
  have hle := length_dropWhile isSpace cs
  rw [show cs.dropWhile isSpace = c :: cs' from h] at hle
  exact hle

section
variable {n : ℕ}
  (hvalue : ∀ {cs} {v : Json fl.Finite} {r}, scanValue fl n cs = some (v, r) →
    Settled (scanValue fl) cs (2 * cs.length) v r)
  (hitems : ∀ {cs} {vs : List (Json fl.Finite)} {r}, scanItems fl n cs = some (vs, r) →
    Settled (scanItems fl) cs (2 * cs.length + 1) vs r)
  (hentries : ∀ {cs} {es : List (String × Json fl.Finite)} {r}, scanEntries fl n cs = some (es, r) →
    Settled (scanEntries fl) cs (2 * cs.length + 1) es r)
include hvalue

include hitems in
theorem scanItems_settled {vs : List (Json fl.Finite)} (h : scanItems fl (n + 1) cs = some (vs, r)) :
    Settled (scanItems fl) cs (2 * cs.length + 1) vs r := by
  obtain ⟨v, rest, hv, hrest⟩ := scanItems_iff.mp h
  obtain ⟨hshort, hmore⟩ := hvalue hv
  rcases hrest with ⟨hskip, rfl⟩ | ⟨cs', vs', hskip, hvs, rfl⟩
  · have hlength := length_skipSpace hskip
    refine settled_succ (by omega) fun m hm => ?_
    exact scanItems_iff.mpr ⟨v, rest, hmore m hm, .inl ⟨hskip, rfl⟩⟩
  · have hlength := length_skipSpace hskip
    have hspace : (skipSpace cs').length ≤ cs'.length := length_dropWhile _ _
    obtain ⟨hshort', hmore'⟩ := hitems hvs
    refine settled_succ (by omega) fun m hm => ?_
    exact scanItems_iff.mpr
      ⟨v, rest, hmore m hm, .inr ⟨cs', vs', hskip, hmore' m (by omega), rfl⟩⟩

include hentries in
theorem scanEntries_settled {es : List (String × Json fl.Finite)}
    (h : scanEntries fl (n + 1) cs = some (es, r)) :
    Settled (scanEntries fl) cs (2 * cs.length + 1) es r := by
  obtain ⟨cs₁, k, cs₂, cs₃, v, rest, rfl, hk, hcolon, hv, hrest⟩ := scanEntries_iff.mp h
  have hname := scanString_shorter hk
  have hspace₂ := length_skipSpace hcolon
  have hspace₃ : (skipSpace cs₃).length ≤ cs₃.length := length_dropWhile _ _
  obtain ⟨hshort, hmore⟩ := hvalue hv
  rcases hrest with ⟨hskip, rfl⟩ | ⟨cs', es', hskip, hes, rfl⟩
  · have hlength := length_skipSpace hskip
    refine settled_succ (by rw [List.length_cons]; omega) fun m hm => ?_
    rw [List.length_cons] at hm
    exact scanEntries_iff.mpr
      ⟨cs₁, k, cs₂, cs₃, v, rest, rfl, hk, hcolon, hmore m (by omega), .inl ⟨hskip, rfl⟩⟩
  · have hlength := length_skipSpace hskip
    have hspace : (skipSpace cs').length ≤ cs'.length := length_dropWhile _ _
    obtain ⟨hshort', hmore'⟩ := hentries hes
    refine settled_succ (by rw [List.length_cons]; omega) fun m hm => ?_
    rw [List.length_cons] at hm
    exact scanEntries_iff.mpr ⟨cs₁, k, cs₂, cs₃, v, rest, rfl, hk, hcolon, hmore m (by omega),
      .inr ⟨cs', es', hskip, hmore' m (by omega), rfl⟩⟩

end

theorem scanValue_settled {n : ℕ} {v : Json fl.Finite}
    (hitems : ∀ {cs} {vs : List (Json fl.Finite)} {r}, scanItems fl n cs = some (vs, r) →
      Settled (scanItems fl) cs (2 * cs.length + 1) vs r)
    (hentries : ∀ {cs} {es : List (String × Json fl.Finite)} {r},
      scanEntries fl n cs = some (es, r) → Settled (scanEntries fl) cs (2 * cs.length + 1) es r)
    (h : scanValue fl (n + 1) cs = some (v, r)) : Settled (scanValue fl) cs (2 * cs.length) v r := by
  cases cs with
  | nil =>
    have hatom : scanAtom fl [] = some (v, r) := h
    exact absurd (scanAtom_shorter hatom) (Nat.not_lt_zero _)
  | cons c cs =>
    have hspace : (skipSpace cs).length ≤ cs.length := length_dropWhile _ _
    have hfuel : 2 * (c :: cs).length = 2 * cs.length + 1 + 1 := by rw [List.length_cons]; omega
    rw [hfuel]
    by_cases hquote : c = '"'
    · subst hquote
      obtain ⟨⟨s, r'⟩, hs, heq⟩ := Option.map_eq_some_iff.mp h
      cases heq
      have hshort := scanString_shorter hs
      exact settled_succ (by rw [List.length_cons]; omega) fun m _ => h
    by_cases harray : c = '['
    · subst harray
      rw [scanValue_array] at h
      split at h
      · rename_i hhead
        cases h
        refine settled_succ ?_ fun m _ => by rw [scanValue_array, if_pos hhead]
        rw [List.length_tail, List.length_cons]
        omega
      · rename_i hhead
        obtain ⟨⟨vs, r'⟩, hvs, heq⟩ := Option.map_eq_some_iff.mp h
        cases heq
        obtain ⟨hshort, hmore⟩ := hitems hvs
        refine settled_succ (by rw [List.length_cons]; omega) fun m hm => ?_
        rw [scanValue_array, if_neg hhead, hmore m (by omega)]
        rfl
    by_cases hobject : c = '\x7b'
    · subst hobject
      rw [scanValue_object] at h
      split at h
      · rename_i hhead
        cases h
        refine settled_succ ?_ fun m _ => by rw [scanValue_object, if_pos hhead]
        rw [List.length_tail, List.length_cons]
        omega
      · rename_i hhead
        obtain ⟨⟨es, r'⟩, hes, heq⟩ := Option.map_eq_some_iff.mp h
        cases heq
        obtain ⟨hshort, hmore⟩ := hentries hes
        refine settled_succ (by rw [List.length_cons]; omega) fun m hm => ?_
        rw [scanValue_object, if_neg hhead, hmore m (by omega)]
        rfl
    · rw [scanValue_atom ⟨hquote, harray, hobject⟩] at h
      refine settled_succ (scanAtom_shorter h) fun m _ => ?_
      rw [scanValue_atom ⟨hquote, harray, hobject⟩, h]

theorem settled (n : ℕ) :
    (∀ {cs} {v : Json fl.Finite} {r}, scanValue fl n cs = some (v, r) →
      Settled (scanValue fl) cs (2 * cs.length) v r) ∧
    (∀ {cs} {vs : List (Json fl.Finite)} {r}, scanItems fl n cs = some (vs, r) →
      Settled (scanItems fl) cs (2 * cs.length + 1) vs r) ∧
    (∀ {cs} {es : List (String × Json fl.Finite)} {r}, scanEntries fl n cs = some (es, r) →
      Settled (scanEntries fl) cs (2 * cs.length + 1) es r) := by
  induction n with
  | zero =>
    refine ⟨fun h => ?_, fun h => ?_, fun h => ?_⟩
    · cases h
    · cases h
    · cases h
  | succ n ih =>
    obtain ⟨hvalue, hitems, hentries⟩ := ih
    exact ⟨scanValue_settled hitems hentries, scanItems_settled hvalue hitems,
      scanEntries_settled hvalue hentries⟩

theorem loads_iff (text : String) (v : Json fl.Finite) : loads fl text = some v ↔
    ∃ n rest, scanValue fl n (skipSpace text.toList) = some (v, rest) ∧ skipSpace rest = [] := by
  have hguard : ∀ rest : List Char,
      (do guard (skipSpace rest = []); some v) = some v ↔ skipSpace rest = [] := by
    intro rest
    by_cases h : skipSpace rest = [] <;> simp [guard, h]
  constructor
  · intro h
    obtain ⟨⟨v', rest⟩, hv, h⟩ := Option.bind_eq_some_iff.mp h
    obtain ⟨-, hend, heq⟩ := Option.bind_eq_some_iff.mp h
    cases heq
    exact ⟨_, rest, hv, (hguard rest).mp h⟩
  · rintro ⟨n, rest, hv, hend⟩
    obtain ⟨-, hmore⟩ := (settled n).1 hv
    rw [loads, hmore _ le_rfl]
    exact (hguard rest).mpr hend

theorem ofLiteral_ne_str (t : Literal) (s : String) : ofLiteral fl t ≠ .str s := by
  unfold ofLiteral
  intro h
  split at h
  · cases h
  · split at h <;> cases h

theorem scanAtom_ne_str (cs rest : List Char) (s : String) : scanAtom fl cs ≠ some (.str s, rest) := by
  unfold scanAtom
  intro h
  split at h
  · rename_i w v hfind
    have hmem := List.mem_of_find?_eq_some hfind
    cases h
    simp [words] at hmem
  · obtain ⟨⟨t, rest'⟩, -, heq⟩ := Option.map_eq_some_iff.mp h
    exact ofLiteral_ne_str t s (Prod.mk.inj heq).1

theorem scanValue_str (h : scanValue fl n cs = some (.str s, rest)) :
    ∃ cs', cs = '"' :: cs' ∧ scanString cs' = some (s, rest) := by
  rw [scanValue.eq_def] at h
  split at h
  · cases h
  · obtain ⟨⟨s', rest'⟩, hscan, heq⟩ := Option.map_eq_some_iff.mp h
    cases heq
    exact ⟨_, rfl, hscan⟩
  · split at h
    · cases h
    · obtain ⟨_, -, heq⟩ := Option.map_eq_some_iff.mp h
      cases heq
  · split at h
    · cases h
    · obtain ⟨_, -, heq⟩ := Option.map_eq_some_iff.mp h
      cases heq
  · exact absurd h (scanAtom_ne_str _ _ _)

theorem loads_ne_self (s : String) : loads fl s ≠ some (.str s) := by
  intro h
  obtain ⟨n, rest, hscan, -⟩ := (loads_iff s _).mp h
  obtain ⟨cs, hcs, hstring⟩ := scanValue_str hscan
  have hshorter := scanString_shorter hstring
  have hskip := length_dropWhile isSpace s.toList
  rw [show s.toList.dropWhile isSpace = '"' :: cs from hcs, List.length_cons] at hskip
  omega

theorem loads_not_finite :
    loads fl "nan" = none ∧ loads fl "inf" = none ∧ loads fl "-inf" = none := by
  refine ⟨?_, ?_, ?_⟩ <;>
    simp [loads, skipSpace, isSpace, scanValue, scanAtom, words, scanNumber, scanMinus, scanInt]

end

end Json
