import AlphaPanda.Lib.JsonReading
import AlphaPanda.Risk.Service

/-!
# Collections in Redis

`CollectionStateManager`. An item is stored under a key that is joined from the
collection and the item, and found again by a pattern; containers are stored as
JSON and scalars as they are, and both are read as JSON. A collection is the map
of what was set as long as its keys are told from those of others, no item id
has a colon, and no string is the text of another value.
-/

namespace AlphaPanda.StateManager

open Json
open Risk (lastPart redisError)

/-- What a glob-style pattern does not take literally. -/
def globSpecial : List Char := ['*', '?', '[', '\\']

/-- What the client sends of a value, or raises, and what Redis finds. -/
structure Redis (fl : Floats) where
  encode : Json fl.Finite → Except Exc String
  glob : String → String → Bool
  /-- KEYS, in whatever order. -/
  keys : String → List String → List String
  encode_str : encode (.str s) = .ok s
  encode_int : encode (.int n) = .ok (String.ofList (Literal.ofInt n).text)
  encode_float : encode (.float x) = .ok (String.ofList (fl.repr x).text)
  encode_nan : encode .nan = .ok "nan"
  encode_infinity : encode (.infinity negative) = .ok (if negative then "-inf" else "inf")
  encode_bool : ∃ e, encode (.bool b) = .error e
  encode_null : ∃ e, encode .null = .error e
  glob_plain : (∀ c ∈ start.toList, c ∉ globSpecial) →
    (glob (start ++ "*") key ↔ start.toList <+: key.toList)
  mem_keys : key ∈ keys pattern held ↔ key ∈ held ∧ glob pattern key

abbrev Store := Dict String String

/-- `ns` is the namespace; `None` counts as empty. -/
structure CollectionStateManager where
  ns : String
  servicePrefix : String

namespace CollectionStateManager

variable {fl : Floats} (r : Redis fl) (m : CollectionStateManager)

def getKey (keyType identifier : String) : String :=
  let baseKey := s!"{m.servicePrefix}:{keyType}:{identifier}"
  if m.ns = "" then baseKey else m.ns ++ ":" ++ baseKey

def itemKey (collectionId itemId : String) : String :=
  m.getKey "collection" (collectionId ++ ":" ++ itemId)

def pattern (collectionId : String) : String := m.getKey "collection" (collectionId ++ ":*")

/-- Text that is no JSON is returned as it is. -/
def decode (text : String) : Json fl.Finite := (loads fl text).getD (.str text)

def getCollection (collectionId : String) (store : Store) : Dict String (Json fl.Finite) :=
  let keys := r.keys (m.pattern collectionId) (store.entries.map Prod.fst)
  .ofList (keys.filterMap fun key => (store.get? key).map fun text => (lastPart key, decode text))

def getCollectionItem (collectionId itemId : String) (store : Store) : Json fl.Finite :=
  match store.get? (m.itemKey collectionId itemId) with
  | none => .null
  | some text => decode text

def setValue (key : String) (v : Json fl.Finite) (store : Store) : Except Exc Store :=
  match r.encode v with
  | .ok text => .ok (store.set key text)
  | .error e => .error (redisError s!"set key {key}" e)

def setJsonValue (key : String) (v : Json fl.Finite) (store : Store) : Except Exc Store :=
  .ok (store.set key (String.ofList (dumps fl v)))

def setCollectionItem (collectionId itemId : String) (v : Json fl.Finite) (store : Store) :
    Except Exc Store :=
  let key := m.itemKey collectionId itemId
  match v with
  | .object _ | .array _ => setJsonValue key v store
  | _ => setValue r key v store

def removeCollectionItem (collectionId itemId : String) (store : Store) : Bool × Store :=
  let key := m.itemKey collectionId itemId
  ((store.get? key).isSome, store.pop key)

inductive Call (fl : Floats) where
  | set (collectionId itemId : String) (v : Json fl.Finite) (distinct : v.Distinct)
  | remove (collectionId itemId : String)

/-- What Redis holds after a call; one that raises stores nothing. -/
def next (store : Store) : Call fl → Store
  | .set c i v _ =>
    match m.setCollectionItem r c i v store with
    | .ok store => store
    | .error _ => store
  | .remove c i => (m.removeCollectionItem c i store).2

def after (calls : List (Call fl)) : Store := calls.foldl (next r m) .empty

/-- The values that were set and not removed, by collection and item. -/
abbrev Items (fl : Floats) := Dict (String × String) (Json fl.Finite)

def Items.next (items : Items fl) : Call fl → Items fl
  | .set c i v _ => items.set (c, i) v
  | .remove c i => items.pop (c, i)

def Items.after (calls : List (Call fl)) : Items fl := calls.foldl Items.next .empty

/-- A collection is the map of its items, also one by one. -/
structure Refines (c : String) (store : Store) (items : Items fl) : Prop where
  collection : ∀ i, (m.getCollection r c store).get? i = items.get? (c, i)
  item : ∀ i, m.getCollectionItem c i store = ((m.getCollection r c store).get? i).getD .null

-- ---------------------------------------------------------------------------
-- Values
-- ---------------------------------------------------------------------------

/-- No boolean, no `None`, no float that is not finite, and no string that is
the text of a value. -/
def Storable : Json fl.Finite → Prop
  | .array _ | .object _ | .int _ | .float _ => True
  | .str s => loads fl s = none
  | .null | .bool _ | .nan | .infinity _ => False

def ReadsBack (v : Json fl.Finite) : Prop :=
  ∃ text, decode text = v ∧ ∀ c i store,
    m.setCollectionItem r c i v store = .ok (store.set (m.itemKey c i) text)

theorem decode_of_loads {v : Json fl.Finite} (h : loads fl text = some v) : decode text = v := by
  rw [decode, h, Option.getD_some]

theorem decode_dumps {v : Json fl.Finite} (h : v.Distinct) :
    decode (String.ofList (dumps fl v)) = v := decode_of_loads (loads_dumps h)

section
variable {r : Redis fl} {m : CollectionStateManager}

theorem readsBack_of_encode {v : Json fl.Finite} (hdecode : decode text = v)
    (hset : ∀ c i store, m.setCollectionItem r c i v store = setValue r (m.itemKey c i) v store)
    (hencode : r.encode v = .ok text) : ReadsBack r m v := by
  refine ⟨text, hdecode, fun c i store => ?_⟩
  rw [hset, setValue, hencode]

theorem readsBack_iff {v : Json fl.Finite} (h : v.Distinct) : ReadsBack r m v ↔ Storable v := by
  have hraises : (∃ e, r.encode v = .error e) →
      (∀ c i store, m.setCollectionItem r c i v store = setValue r (m.itemKey c i) v store) →
        ¬ReadsBack r m v := by
    rintro ⟨e, he⟩ hset ⟨text, -, hok⟩
    have hstore := hok "" "" .empty
    rw [hset, setValue, he] at hstore
    cases hstore
  have hloses : ∀ {text}, r.encode v = .ok text → decode text ≠ v →
      (∀ c i store, m.setCollectionItem r c i v store = setValue r (m.itemKey c i) v store) →
        ¬ReadsBack r m v := by
    rintro text hencode hne hset ⟨text', hdecode, hok⟩
    have hstore := hok "" "" .empty
    rw [hset, setValue, hencode] at hstore
    have hget := congrArg (fun s : Store => s.get? (m.itemKey "" "")) (Except.ok.inj hstore)
    simp only [Dict.get?_set_self, Option.some.injEq] at hget
    exact hne (hget ▸ hdecode)
  cases v with
  | array vs => exact iff_of_true ⟨_, decode_dumps h, fun _ _ _ => rfl⟩ trivial
  | object es => exact iff_of_true ⟨_, decode_dumps h, fun _ _ _ => rfl⟩ trivial
  | int n =>
    have hdecode : decode (String.ofList (dumps fl (.int n))) = .int n := decode_dumps h
    exact iff_of_true (readsBack_of_encode hdecode (fun _ _ _ => rfl) r.encode_int) trivial
  | float x =>
    have hdecode : decode (String.ofList (dumps fl (.float x))) = .float x := decode_dumps h
    exact iff_of_true (readsBack_of_encode hdecode (fun _ _ _ => rfl) r.encode_float) trivial
  | null => exact iff_of_false (hraises r.encode_null fun _ _ _ => rfl) not_false
  | bool b => exact iff_of_false (hraises r.encode_bool fun _ _ _ => rfl) not_false
  | nan =>
    refine iff_of_false (hloses r.encode_nan ?_ fun _ _ _ => rfl) not_false
    rw [decode, loads_not_finite.1]
    exact fun heq => nomatch heq
  | infinity negative =>
    have hnone : loads fl (if negative then "-inf" else "inf") = none := by
      cases negative
      · exact loads_not_finite.2.1
      · exact loads_not_finite.2.2
    refine iff_of_false (hloses r.encode_infinity ?_ fun _ _ _ => rfl) not_false
    rw [decode, hnone]
    exact fun heq => nomatch heq
  | str s =>
    by_cases hs : loads fl s = none
    · have hdecode : decode s = (.str s : Json fl.Finite) := by rw [decode, hs, Option.getD_none]
      exact iff_of_true (readsBack_of_encode hdecode (fun _ _ _ => rfl) r.encode_str) hs
    · refine iff_of_false (hloses r.encode_str ?_ fun _ _ _ => rfl) hs
      obtain ⟨v, hv⟩ := Option.ne_none_iff_exists'.mp hs
      rw [decode_of_loads hv]
      rintro rfl
      exact loads_ne_self s hv

def base (m : CollectionStateManager) : String :=
  (if m.ns = "" then "" else m.ns ++ ":") ++ m.servicePrefix ++ ":collection:"

theorem getKey_eq (m : CollectionStateManager) (identifier : String) :
    m.getKey "collection" identifier = m.base ++ identifier := by
  rw [← String.toList_inj]
  unfold getKey base
  dsimp only
  split <;> simp [toString]

theorem itemKey_toList (m : CollectionStateManager) (c i : String) :
    (m.itemKey c i).toList = (m.base ++ c).toList ++ ':' :: i.toList := by
  rw [itemKey, getKey_eq]
  simp

theorem itemKey_inj : m.itemKey c i = m.itemKey c i' ↔ i = i' := by
  rw [← String.toList_inj, itemKey_toList, itemKey_toList, List.append_cancel_left_eq]
  simp [String.toList_inj]

theorem takeWhile_append_colon {cs rest : List Char} (h : ':' ∉ cs) :
    (cs ++ ':' :: rest).takeWhile (· ≠ ':') = cs := by
  have hall : ∀ c ∈ cs, decide (c ≠ ':') = true := fun c hc =>
    decide_eq_true fun heq => h (heq ▸ hc)
  rw [List.takeWhile_append_of_pos hall, List.takeWhile_cons_of_neg (by simp), List.append_nil]

theorem lastPart_itemKey (m : CollectionStateManager) (c : String) (h : ':' ∉ i.toList) :
    lastPart (m.itemKey c i) = i := by
  rw [lastPart, itemKey_toList, List.reverse_append, List.reverse_cons, List.append_assoc,
    List.singleton_append, takeWhile_append_colon (by simpa using h), List.reverse_reverse,
    String.ofList_toList]

-- ---------------------------------------------------------------------------
-- Runs
-- ---------------------------------------------------------------------------

/-- A call that keeps to the collection `c`, or to others: the pattern of `c`
finds the key of an item of `c`, which has no colon and a storable value, and
no key of another collection, nor is that one of `c`. -/
def Fits (r : Redis fl) (m : CollectionStateManager) (c : String) : Call fl → Prop
  | .set c' i v _ =>
    if c' = c then r.glob (m.pattern c) (m.itemKey c i) ∧ ':' ∉ i.toList ∧ Storable v
    else r.glob (m.pattern c) (m.itemKey c' i) = false ∧ ∀ j, m.itemKey c' i ≠ m.itemKey c j
  | .remove c' i => c' ≠ c → ∀ j, m.itemKey c' i ≠ m.itemKey c j

def Concerns (r : Redis fl) (m : CollectionStateManager) (c key : String) : Prop :=
  r.glob (m.pattern c) key ∨ ∃ i, key = m.itemKey c i

/-- Of the keys that concern `c`, Redis holds those of its items. -/
structure Agrees (r : Redis fl) (m : CollectionStateManager) (c : String) (store : Store)
    (items : Items fl) : Prop where
  held : ∀ key text, store.get? key = some text → Concerns r m c key →
    ∃ i v, key = m.itemKey c i ∧ items.get? (c, i) = some v
  stored : ∀ i v, items.get? (c, i) = some v → ':' ∉ i.toList ∧
    r.glob (m.pattern c) (m.itemKey c i) ∧
      ∃ text, store.get? (m.itemKey c i) = some text ∧ decode text = v

theorem agrees_empty : Agrees r m c .empty .empty where
  held _ _ h := nomatch h
  stored _ _ h := nomatch h

theorem Agrees.elsewhere (h : Agrees r m c store items)
    (hstore : ∀ key, Concerns r m c key → store'.get? key = store.get? key)
    (hitems : ∀ i, items'.get? (c, i) = items.get? (c, i)) : Agrees r m c store' items' where
  held key text hget hkey := by
    rw [hstore key hkey] at hget
    obtain ⟨i, v, heq, hv⟩ := h.held key text hget hkey
    exact ⟨i, v, heq, (hitems i).trans hv⟩
  stored i v hv := by
    obtain ⟨hcolon, hglob, text, htext, hdecode⟩ := h.stored i v ((hitems i).symm.trans hv)
    exact ⟨hcolon, hglob, text, (hstore _ (.inl hglob)).trans htext, hdecode⟩

theorem Agrees.set_own (h : Agrees r m c store items) (hcolon : ':' ∉ i.toList)
    (hglob : r.glob (m.pattern c) (m.itemKey c i)) (hdecode : decode text = v) :
    Agrees r m c (store.set (m.itemKey c i) text) (items.set (c, i) v) where
  held key text' hget hkey := by
    by_cases heq : key = m.itemKey c i
    · exact ⟨i, v, heq, Dict.get?_set_self _⟩
    · rw [Dict.get?_set_of_ne _ heq] at hget
      obtain ⟨j, w, rfl, hw⟩ := h.held key text' hget hkey
      have hne : (c, j) ≠ (c, i) := fun hpair => heq (by rw [(Prod.mk.inj hpair).2])
      exact ⟨j, w, rfl, (Dict.get?_set_of_ne _ hne).trans hw⟩
  stored j w hw := by
    by_cases heq : j = i
    · subst heq
      rw [Dict.get?_set_self] at hw
      exact ⟨hcolon, hglob, text, Dict.get?_set_self _, hdecode.trans (Option.some.inj hw)⟩
    · rw [Dict.get?_set_of_ne _ fun hpair => heq (Prod.mk.inj hpair).2] at hw
      obtain ⟨hcolon', hglob', text', htext, hdecode'⟩ := h.stored j w hw
      have hne : m.itemKey c j ≠ m.itemKey c i := fun hkey => heq (itemKey_inj.mp hkey)
      exact ⟨hcolon', hglob', text', (Dict.get?_set_of_ne _ hne).trans htext, hdecode'⟩

theorem Agrees.remove_own (h : Agrees r m c store items) (i : String) :
    Agrees r m c (store.pop (m.itemKey c i)) (items.pop (c, i)) where
  held key text hget hkey := by
    rw [Dict.get?_pop] at hget
    obtain ⟨hne, hget⟩ := Option.ite_none_left_eq_some.mp hget
    obtain ⟨j, w, rfl, hw⟩ := h.held key text hget hkey
    refine ⟨j, w, rfl, ?_⟩
    rw [Dict.get?_pop, if_neg fun hpair => hne (by rw [(Prod.mk.inj hpair).2]), hw]
  stored j w hw := by
    rw [Dict.get?_pop] at hw
    obtain ⟨hne, hw⟩ := Option.ite_none_left_eq_some.mp hw
    obtain ⟨hcolon, hglob, text, htext, hdecode⟩ := h.stored j w hw
    refine ⟨hcolon, hglob, text, ?_, hdecode⟩
    rw [Dict.get?_pop, if_neg fun hkey => hne (by rw [itemKey_inj.mp hkey]), htext]

theorem next_set (store : Store) (hv : v.Distinct) : next r m store (.set c i v hv) = store ∨
    ∃ text, next r m store (.set c i v hv) = store.set (m.itemKey c i) text := by
  have hscalar : (match setValue r (m.itemKey c i) v store with
      | .ok store => store
      | .error _ => store) = store ∨ ∃ text, (match setValue r (m.itemKey c i) v store with
        | .ok store => store
        | .error _ => store) = store.set (m.itemKey c i) text := by
    unfold setValue
    cases r.encode v with
    | error e => exact .inl rfl
    | ok text => exact .inr ⟨text, rfl⟩
  cases v with
  | array vs => exact .inr ⟨_, rfl⟩
  | object es => exact .inr ⟨_, rfl⟩
  | _ => exact hscalar

theorem Agrees.next (h : Agrees r m c store items) (hfits : Fits r m c call) :
    Agrees r m c (next r m store call) (items.next call) := by
  cases call with
  | set c' i v hv =>
    by_cases hown : c' = c
    · subst hown
      rw [Fits, if_pos rfl] at hfits
      obtain ⟨hglob, hcolon, hstorable⟩ := hfits
      obtain ⟨text, hdecode, hset⟩ := (readsBack_iff (r := r) (m := m) hv).mpr hstorable
      rw [CollectionStateManager.next, hset]
      exact h.set_own hcolon hglob hdecode
    · rw [Fits, if_neg hown] at hfits
      obtain ⟨hglob, hkey⟩ := hfits
      have hother : ∀ key, Concerns r m c key → key ≠ m.itemKey c' i := by
        rintro key (hpattern | ⟨j, hj⟩) heq
        · rw [heq, hglob] at hpattern
          cases hpattern
        · exact hkey j (heq.symm.trans hj)
      refine h.elsewhere (fun key hconcerns => ?_) fun j => ?_
      · obtain hsame | ⟨text, hset⟩ := next_set (r := r) (m := m) store hv (c := c') (i := i)
        · rw [hsame]
        · rw [hset, Dict.get?_set_of_ne _ (hother key hconcerns)]
      · exact Dict.get?_set_of_ne _ fun hpair => hown (Prod.mk.inj hpair).1.symm
  | remove c' i =>
    by_cases hown : c' = c
    · subst hown
      exact h.remove_own i
    · have hkey := hfits hown
      refine h.elsewhere (fun key hconcerns => ?_) fun j => ?_
      · change (store.pop (m.itemKey c' i)).get? key = _
        rw [Dict.get?_pop]
        split
        · rename_i heq
          refine (Option.eq_none_iff_forall_ne_some.mpr fun text htext => ?_).symm
          obtain ⟨j, v, hj, -⟩ := h.held key text htext hconcerns
          exact hkey j (heq.symm.trans hj)
        · rfl
      · change (items.pop (c', i)).get? (c, j) = _
        rw [Dict.get?_pop, if_neg fun hpair => hown (Prod.mk.inj hpair).1.symm]

theorem Agrees.after (hfits : ∀ call ∈ calls, Fits r m c call) :
    Agrees r m c (after r m calls) (Items.after calls) := by
  induction calls using List.reverseRecOn with
  | nil => exact agrees_empty
  | append_singleton calls call ih =>
    have hbefore := ih fun b hb => hfits b (List.mem_append_left _ hb)
    rw [CollectionStateManager.after, Items.after, List.foldl_append, List.foldl_append]
    exact hbefore.next (hfits call (List.mem_append_right _ List.mem_cons_self))

theorem Agrees.found (h : Agrees r m c store items)
    (hmem : (i, v) ∈ (r.keys (m.pattern c) (store.entries.map Prod.fst)).filterMap fun key =>
      (store.get? key).map fun text => (lastPart key, decode text)) : items.get? (c, i) = some v := by
  obtain ⟨key, hkey, hread⟩ := List.mem_filterMap.mp hmem
  obtain ⟨text, htext, heq⟩ := Option.map_eq_some_iff.mp hread
  obtain ⟨rfl, rfl⟩ := Prod.mk.inj heq
  obtain ⟨j, w, rfl, hw⟩ := h.held key text htext (.inl (r.mem_keys.mp hkey).2)
  obtain ⟨hcolon, -, text', htext', rfl⟩ := h.stored j w hw
  obtain rfl := Option.some.inj (htext.symm.trans htext')
  rw [lastPart_itemKey m c hcolon]
  exact hw

theorem Agrees.collection (h : Agrees r m c store items) (i : String) :
    (m.getCollection r c store).get? i = items.get? (c, i) := by
  refine Option.ext fun v => ⟨fun hget => ?_, fun hget => ?_⟩
  · exact h.found (Dict.mem_of_get?_ofList hget)
  · obtain ⟨hcolon, hglob, text, htext, rfl⟩ := h.stored i v hget
    refine Dict.get?_ofList ?_ fun v' hv' => ?_
    · refine List.mem_filterMap.mpr ⟨m.itemKey c i, r.mem_keys.mpr ⟨?_, hglob⟩, ?_⟩
      · exact List.mem_map_of_mem (f := Prod.fst) (Dict.mem_entries.mpr htext)
      · rw [htext, Option.map_some, lastPart_itemKey m c hcolon]
    · exact Option.some.inj ((h.found hv').symm.trans hget)

theorem Agrees.item (h : Agrees r m c store items) (i : String) :
    m.getCollectionItem c i store = ((m.getCollection r c store).get? i).getD .null := by
  rw [h.collection, getCollectionItem]
  cases htext : store.get? (m.itemKey c i) with
  | none =>
    cases hv : items.get? (c, i) with
    | none => rfl
    | some v =>
      obtain ⟨-, -, text, hstored, -⟩ := h.stored i v hv
      cases htext.symm.trans hstored
  | some text =>
    obtain ⟨j, v, hkey, hv⟩ := h.held _ text htext (.inr ⟨i, rfl⟩)
    obtain rfl := itemKey_inj.mp hkey
    obtain ⟨-, -, text', htext', rfl⟩ := h.stored i v hv
    rw [hv, Option.some.inj (htext.symm.trans htext')]
    rfl

/-- A collection is the map of its items after any calls that keep to it or to
others. -/
theorem collections_refine (hfits : ∀ call ∈ calls, Fits r m c call) :
    Refines r m c (after r m calls) (Items.after calls) where
  collection := (Agrees.after hfits).collection
  item := (Agrees.after hfits).item

def Plain (s : String) : Prop := ∀ ch ∈ s.toList, ch ∉ globSpecial

instance : DecidablePred Plain := fun s => List.decidableBAll _ s.toList

theorem glob_iff (hplain : Plain (m.base ++ c ++ ":")) (c' i : String) :
    r.glob (m.pattern c) (m.itemKey c' i) ↔ c.toList ++ [':'] <+: c'.toList ++ ':' :: i.toList := by
  have hpattern : m.pattern c = m.base ++ c ++ ":" ++ "*" := by
    rw [pattern, getKey_eq, ← String.toList_inj]
    simp
  rw [hpattern, r.glob_plain hplain, itemKey_toList]
  simp [List.append_assoc]

theorem eq_of_start {c c' : String} {rest : List Char} (hc : ':' ∉ c.toList) (hc' : ':' ∉ c'.toList)
    (h : c.toList ++ [':'] <+: c'.toList ++ ':' :: rest) : c' = c := by
  obtain ⟨rest', heq⟩ := h
  rw [List.append_assoc, List.singleton_append] at heq
  have htake := congrArg (List.takeWhile (· ≠ ':')) heq
  rw [takeWhile_append_colon hc, takeWhile_append_colon hc'] at htake
  exact (String.toList_inj.mp htake).symm

def Call.collectionId : Call fl → String
  | .set c _ _ _ | .remove c _ => c

/-- With plain names without colons only the items matter. -/
theorem fits_of_plain {call : Call fl} (hplain : Plain (m.base ++ c ++ ":")) (hc : ':' ∉ c.toList)
    (hcall : ':' ∉ call.collectionId.toList)
    (hset : ∀ i v hv, call = .set c i v hv → ':' ∉ i.toList ∧ Storable v) : Fits r m c call := by
  have hother : ∀ {c' i}, ':' ∉ c'.toList → c' ≠ c → ∀ j, m.itemKey c' i ≠ m.itemKey c j := by
    intro c' i hc' hne j heq
    have hglob := (glob_iff (r := r) hplain c j).mpr (by simp)
    exact hne (eq_of_start hc hc' ((glob_iff hplain c' i).mp (heq ▸ hglob)))
  cases call with
  | remove c' i => exact hother hcall
  | set c' i v hv =>
    by_cases hown : c' = c
    · subst hown
      rw [Fits, if_pos rfl]
      obtain ⟨hcolon, hstorable⟩ := hset i v hv rfl
      exact ⟨(glob_iff hplain c' i).mpr (by simp), hcolon, hstorable⟩
    · rw [Fits, if_neg hown]
      refine ⟨Bool.eq_false_iff.mpr fun hglob => ?_, hother hcall hown⟩
      exact hown (eq_of_start hc hcall ((glob_iff hplain c' i).mp hglob))

end

-- ---------------------------------------------------------------------------
-- Runs on a plain Redis
-- ---------------------------------------------------------------------------

def literals : Floats where
  Finite := { t : Literal // t.Valid ∧ t.isInt = false }
  repr x := x.1
  float t := if h : t.Valid ∧ t.isInt = false then some ⟨t, h⟩ else none
  valid x := x.2.1
  not_int x := x.2.2
  float_repr x := dif_pos x.2

def dataError (typeName : String) : Exc :=
  ⟨"DataError", s!"Invalid input of type: '{typeName}'. Convert to a bytes, string, int or float first.",
    .builtin⟩

def encode (fl : Floats) : Json fl.Finite → Except Exc String
  | .str s => .ok s
  | .int n => .ok (String.ofList (Literal.ofInt n).text)
  | .float x => .ok (String.ofList (fl.repr x).text)
  | .nan => .ok "nan"
  | .infinity negative => .ok (if negative then "-inf" else "inf")
  | .bool _ => .error (dataError "bool")
  | .null => .error (dataError "NoneType")
  | .array _ => .error (dataError "list")
  | .object _ => .error (dataError "dict")

def startsWith (pattern key : String) : Bool :=
  if pattern.toList.getLast? = some '*' then pattern.toList.dropLast <+: key.toList
  else pattern = key

theorem startsWith_star (start key : String) :
    startsWith (start ++ "*") key ↔ start.toList <+: key.toList := by
  have hlist : (start ++ "*").toList = start.toList ++ ['*'] := by simp
  rw [startsWith, hlist, List.getLast?_concat, List.dropLast_concat, if_pos rfl, decide_eq_true_iff]

def plainRedis (fl : Floats) : Redis fl where
  encode := encode fl
  glob := startsWith
  keys pattern held := held.filter (startsWith pattern)
  encode_str := rfl
  encode_int := rfl
  encode_float := rfl
  encode_nan := rfl
  encode_infinity := rfl
  encode_bool := ⟨_, rfl⟩
  encode_null := ⟨_, rfl⟩
  glob_plain _ := startsWith_star _ _
  mem_keys := List.mem_filter

def paper : CollectionStateManager := ⟨"paper", "portfolio"⟩

def tradedCalls : List (Call literals) :=
  [.set "positions" "256265" (.int 5) trivial,
   .set "trades" "1" (.str "filled") trivial,
   .remove "positions" "738561"]

theorem traded_fits : ∀ call ∈ tradedCalls, Fits (plainRedis literals) paper "positions" call := by
  intro call hmem
  refine fits_of_plain (by decide) (by decide) ?_ ?_
  · revert call
    decide
  · rintro i v hv rfl
    simp only [tradedCalls, List.mem_cons, List.not_mem_nil, reduceCtorEq, or_false] at hmem
    obtain heq | heq := hmem
    · cases heq
      exact ⟨by decide, trivial⟩
    · have hne : "positions" ≠ "trades" := by decide
      exact absurd (congrArg Call.collectionId heq) hne

theorem traded_refines :
    (∀ call ∈ tradedCalls, Fits (plainRedis literals) paper "positions" call) ∧
      Refines (plainRedis literals) paper "positions" (after (plainRedis literals) paper tradedCalls)
        (Items.after tradedCalls) :=
  ⟨traded_fits, collections_refine traded_fits⟩

theorem colon_in_item_id : ¬∀ (c : String) (calls : List (Call literals)),
    Refines (plainRedis literals) paper c (after (plainRedis literals) paper calls)
      (Items.after calls) := by
  intro h
  have hget := (h "positions" [.set "positions" "256265:MIS" (.int 5) trivial]).collection "256265:MIS"
  have hnone := congrArg Option.isSome hget
  revert hnone
  decide

end CollectionStateManager

end AlphaPanda.StateManager
