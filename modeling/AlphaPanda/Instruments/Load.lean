import AlphaPanda.Instruments.Repository

/-!
# When a load succeeds

What a load stores and adds, as functions of the file and the tables. It
succeeds if the values of each batch have distinct tokens, the tokens of the
file are numbers and the constraints accept each new registry row; then it
takes a fixed number of operations.
-/

namespace AlphaPanda.Instruments

open Coroutine

-- ---------------------------------------------------------------------------
-- What is stored
-- ---------------------------------------------------------------------------

/-- The values of each batch, where it has any. -/
def storedValues (sourceFile : String) (bs : List (List Row)) : List (List Instrument) :=
  (bs.map (batchValues sourceFile)).filter (· ≠ [])

def Tables.putAll (t : Tables) (now : Timestamp) (vss : List (List Instrument)) : Tables :=
  vss.foldl (fun t values => t.put now values) t

def Distinct (vss : List (List Instrument)) : Prop :=
  ∀ values ∈ vss, (values.map (·.instrumentToken)).Nodup

theorem upsertBatches_cons (sourceFile : String) (now : Timestamp) (n : ℕ) (batch : List Row)
    (rest : List (List Row)) (h : batchValues sourceFile batch ≠ []) :
    upsertBatches sourceFile now n (batch :: rest) =
      upsertValues now (batchValues sourceFile batch) >>= fun _ =>
        upsertBatches sourceFile now (n + (batchValues sourceFile batch).length) rest := by
  rw [upsertBatches]
  exact if_neg h

theorem upsertValues_completes (now : Timestamp) (h : (values.map Instrument.instrumentToken).Nodup)
    (c t : Tables) : (upsertValues now values).Completes ⟨c, t⟩ 1 () ⟨c, t.put now values⟩ :=
  statement_completes (s := ⟨c, t⟩) (if_pos h)

theorem upsertValues_breaks (now : Timestamp) (h : ¬(values.map Instrument.instrumentToken).Nodup)
    (c t : Tables) : (upsertValues now values).Breaks ⟨c, t⟩ :=
  statement_breaks (s := ⟨c, t⟩) (if_neg h)

theorem upsertBatches_completes {sourceFile : String} {bs : List (List Row)} (now : Timestamp)
    (h : Distinct (storedValues sourceFile bs)) (n : ℕ) (c t : Tables) :
    ∃ total, (upsertBatches sourceFile now n bs).Completes ⟨c, t⟩ (storedValues sourceFile bs).length
      total ⟨c, t.putAll now (storedValues sourceFile bs)⟩ := by
  induction bs generalizing n t with
  | nil => exact ⟨n, completes_pure n _⟩
  | cons batch rest ih =>
    by_cases hnone : batchValues sourceFile batch = []
    · have hskip : storedValues sourceFile (batch :: rest) = storedValues sourceFile rest := by
        simp [storedValues, hnone]
      rw [hskip] at h ⊢
      rw [upsertBatches]
      simp only [hnone, if_true]
      exact ih h n t
    · have hcons : storedValues sourceFile (batch :: rest) =
          batchValues sourceFile batch :: storedValues sourceFile rest := by
        simp [storedValues, hnone]
      rw [hcons] at h ⊢
      obtain ⟨total, hrest⟩ := ih (fun values hv => h values (List.mem_cons_of_mem _ hv))
        (n + (batchValues sourceFile batch).length) (t.put now (batchValues sourceFile batch))
      refine ⟨total, ?_⟩
      rw [upsertBatches_cons sourceFile now n batch rest hnone, List.length_cons,
        Nat.add_comm (storedValues sourceFile rest).length]
      refine (upsertValues_completes now (h _ List.mem_cons_self) c t).bind ?_
      exact hrest

theorem upsertBatches_breaks {sourceFile : String} {bs : List (List Row)} (now : Timestamp)
    (h : ¬Distinct (storedValues sourceFile bs)) (n : ℕ) (c t : Tables) :
    (upsertBatches sourceFile now n bs).Breaks ⟨c, t⟩ := by
  induction bs generalizing n t with
  | nil => exact absurd (fun values hv => by cases hv) h
  | cons batch rest ih =>
    by_cases hnone : batchValues sourceFile batch = []
    · have hskip : storedValues sourceFile (batch :: rest) = storedValues sourceFile rest := by
        simp [storedValues, hnone]
      rw [hskip] at h
      rw [upsertBatches]
      simp only [hnone, if_true]
      exact ih h n t
    · have hcons : storedValues sourceFile (batch :: rest) =
          batchValues sourceFile batch :: storedValues sourceFile rest := by
        simp [storedValues, hnone]
      rw [upsertBatches_cons sourceFile now n batch rest hnone]
      by_cases hfirst : ((batchValues sourceFile batch).map (·.instrumentToken)).Nodup
      · refine (upsertValues_completes now hfirst c t).breaks (ih (fun hrest => h ?_) _ _)
        rw [hcons]
        exact List.forall_mem_cons.mpr ⟨hfirst, hrest⟩
      · exact (upsertValues_breaks now hfirst c t).bind

-- ---------------------------------------------------------------------------
-- What is added
-- ---------------------------------------------------------------------------

def addAll : List NewEntry → Handler Unit
  | [] => pure ()
  | e :: es => do
    addEntry e
    addAll es

def Tables.insertAll (t : Tables) (es : List NewEntry) : Except Exc Tables := es.foldlM Tables.insert t

/-- The entries for the rows whose token is not in `known`. -/
def entriesFor (known : List ℤ) (data : List Row) : List NewEntry :=
  data.filterMap fun row =>
    match row.token with
    | .ok token => if token ∈ known then none else some (row.entry token)
    | .error _ => none

def Numbered (data : List Row) : Prop := ∀ row ∈ data, ∃ token, row.token = .ok token

theorem addNew_eq {new known : List ℤ} {data : List Row} (h : Numbered data)
    (hnew : ∀ row ∈ data, ∀ token, row.token = .ok token → (token ∈ new ↔ token ∉ known)) :
    addNew new data = addAll (entriesFor known data) := by
  induction data with
  | nil => rfl
  | cons row rest ih =>
    obtain ⟨token, htoken⟩ := h row List.mem_cons_self
    have hrest := ih (fun row hrow => h row (List.mem_cons_of_mem _ hrow))
      fun row hrow => hnew row (List.mem_cons_of_mem _ hrow)
    have hmem := hnew row List.mem_cons_self token htoken
    rw [addNew, htoken, hrest]
    by_cases hknown : token ∈ known
    · have hskip : entriesFor known (row :: rest) = entriesFor known rest := by
        simp [entriesFor, htoken, hknown]
      simp [hskip, hmem, hknown]
    · have hcons : entriesFor known (row :: rest) = row.entry token :: entriesFor known rest := by
        simp [entriesFor, htoken, hknown]
      simp [hcons, hmem, hknown, addAll]

theorem addEntry_completes (e : NewEntry) (h : t.insert e = .ok t') (c : Tables) :
    (addEntry e).Completes ⟨c, t⟩ 3 () (.fresh t') := by
  refine Prog.Completes.rescued ?_ _
  refine (statement_completes (s := ⟨c, t⟩) h).bind (n := 2) ?_
  exact (commit_completes (s := ⟨c, t'⟩)).bind (n := 1) (completes_perform Op.refresh _)

theorem addEntry_breaks (e : NewEntry) (h : t.insert e = .error err) (c : Tables) :
    (addEntry e).Breaks ⟨c, t⟩ :=
  Prog.Breaks.rescued (statement_breaks (s := ⟨c, t⟩) h).bind _

theorem addAll_completes {es : List NewEntry} (h : t.insertAll es = .ok t') (c : Tables) :
    (addAll es).Completes ⟨c, t⟩ (3 * es.length) () ⟨if es = [] then c else t', t'⟩ := by
  induction es generalizing c t with
  | nil =>
    cases h
    exact completes_pure () _
  | cons e es ih =>
    obtain ⟨t₁, he, hes⟩ : ∃ t₁, t.insert e = .ok t₁ ∧ t₁.insertAll es = .ok t' := by
      rw [Tables.insertAll, List.foldlM_cons] at h
      cases he : t.insert e with
      | error err => rw [he] at h; cases h
      | ok t₁ =>
        rw [he] at h
        exact ⟨t₁, rfl, h⟩
    have hrest := ih hes t₁
    have hcommitted : (if es = [] then t₁ else t') = t' := by
      split
      · rename_i hnil
        subst hnil
        cases hes
        rfl
      · rfl
    rw [hcommitted] at hrest
    rw [List.length_cons, Nat.mul_succ, Nat.add_comm (3 * es.length), if_neg (List.cons_ne_nil e es)]
    refine (addEntry_completes e he c).bind ?_
    exact hrest

theorem addAll_breaks {es : List NewEntry} (h : t.insertAll es = .error err) (c : Tables) :
    (addAll es).Breaks ⟨c, t⟩ := by
  induction es generalizing c t with
  | nil => cases h
  | cons e es ih =>
    rw [Tables.insertAll, List.foldlM_cons] at h
    cases he : t.insert e with
    | error err => exact (addEntry_breaks e he c).bind
    | ok t₁ =>
      rw [he] at h
      refine (addEntry_completes e he c).breaks ?_
      exact ih h t₁

-- ---------------------------------------------------------------------------
-- The whole load
-- ---------------------------------------------------------------------------

def tokensOf (data : List Row) : List ℤ := data.filterMap (·.token.toOption)

theorem mem_tokensOf {data : List Row} : token ∈ tokensOf data ↔ ∃ row ∈ data, row.token = .ok token := by
  simp only [tokensOf, List.mem_filterMap]
  refine exists_congr fun row => and_congr_right fun _ => ?_
  cases row.token <;> simp [Except.toOption]

theorem mapM_token (h : Numbered data) : data.mapM Row.token = .ok (tokensOf data) := by
  induction data with
  | nil => rfl
  | cons row rest ih =>
    obtain ⟨token, htoken⟩ := h row List.mem_cons_self
    rw [List.mapM_cons, htoken, ih fun row hrow => h row (List.mem_cons_of_mem _ hrow)]
    simp [tokensOf, htoken, Except.toOption, bind, Except.bind, pure, Except.pure]

theorem mapM_token_error {data : List Row} (h : ¬Numbered data) :
    ∃ e, data.mapM Row.token = .error e := by
  induction data with
  | nil => exact absurd (fun row hrow => by cases hrow) h
  | cons row rest ih =>
    rw [List.mapM_cons]
    cases htoken : row.token with
    | error e => exact ⟨e, rfl⟩
    | ok token =>
      obtain ⟨e, he⟩ := ih fun hrest => h (List.forall_mem_cons.mpr ⟨⟨token, htoken⟩, hrest⟩)
      exact ⟨e, by rw [he]; rfl⟩

theorem addNew_tokensOf {known : List ℤ} (h : Numbered data) :
    addNew ((tokensOf data).filter (· ∉ known)) data = addAll (entriesFor known data) :=
  addNew_eq h fun row hrow token htoken => by
    simp [List.mem_filter, mem_tokensOf.mpr ⟨row, hrow, htoken⟩]

theorem updateRegistry_completes (hdata : Numbered data)
    (h : t.insertAll (entriesFor t.subscribed data) = .ok t') (c : Tables) :
    (updateRegistryFromCsv data).Completes ⟨c, t⟩ (1 + 3 * (entriesFor t.subscribed data).length)
      true ⟨if entriesFor t.subscribed data = [] then c else t', t'⟩ := by
  refine (query_completes (s := ⟨c, t⟩) Tables.subscribed).bind ?_
  rw [mapM_token hdata]
  have hadd := addAll_completes h c
  rw [← addNew_tokensOf hdata] at hadd
  exact hadd.bind (n := 0) (completes_pure true _)

theorem updateRegistry_breaks (h : ¬(Numbered data ∧
    ∃ t', t.insertAll (entriesFor t.subscribed data) = .ok t')) (c : Tables) :
    (updateRegistryFromCsv data).Breaks ⟨c, t⟩ := by
  refine (query_completes (s := ⟨c, t⟩) Tables.subscribed).breaks ?_
  by_cases hdata : Numbered data
  · rw [mapM_token hdata]
    cases hinsert : t.insertAll (entriesFor t.subscribed data) with
    | ok t' => exact absurd ⟨hdata, t', hinsert⟩ h
    | error e =>
      have hadd := addAll_breaks hinsert c
      rw [← addNew_tokensOf hdata] at hadd
      exact hadd.bind
  · obtain ⟨e, he⟩ := mapM_token_error hdata
    rw [he]
    exact breaks_throw e _

def newEntries (updateRegistry : Bool) (data : List Row) (t : Tables) : List NewEntry :=
  if updateRegistry then entriesFor t.subscribed data else []

def updateOps (updateRegistry : Bool) (data : List Row) (t : Tables) : ℕ :=
  if updateRegistry then 1 + 3 * (newEntries updateRegistry data t).length else 0

theorem requestedUpdate_completes (hdata : updateRegistry = true → Numbered data)
    (h : t.insertAll (newEntries updateRegistry data t) = .ok t') (c : Tables) :
    (requestedUpdate updateRegistry data).Completes ⟨c, t⟩ (updateOps updateRegistry data t)
      updateRegistry ⟨if newEntries updateRegistry data t = [] then c else t', t'⟩ := by
  cases updateRegistry with
  | false =>
    cases h
    exact completes_pure false _
  | true => exact (updateRegistry_completes (hdata rfl) h c).bind (n := 0) (completes_pure true _)

theorem requestedUpdate_breaks (h : ¬((updateRegistry = true → Numbered data) ∧
    ∃ t', t.insertAll (newEntries updateRegistry data t) = .ok t')) (c : Tables) :
    (requestedUpdate updateRegistry data).Breaks ⟨c, t⟩ := by
  cases updateRegistry with
  | false => exact absurd ⟨fun hfalse => absurd hfalse (by decide), t, rfl⟩ h
  | true =>
    refine (updateRegistry_breaks (fun hvalid => h ?_) c).bind
    exact ⟨fun _ => hvalid.1, hvalid.2⟩

def fileValues (sourceFile : String) (data : List Row) : List (List Instrument) :=
  storedValues sourceFile (batches 1000 data)

/-- A load of `data` turns `t` into `t'`. -/
structure Loads (sourceFile : String) (updateRegistry : Bool) (now : Timestamp) (data : List Row)
    (t t' : Tables) : Prop where
  distinct : Distinct (fileValues sourceFile data)
  numbered : updateRegistry = true → Numbered data
  inserts : (t.putAll now (fileValues sourceFile data)).insertAll (newEntries updateRegistry data t) =
    .ok t'

theorem putAll_registry (t : Tables) (now : Timestamp) (vss : List (List Instrument)) :
    (t.putAll now vss).registry = t.registry := by
  unfold Tables.putAll
  induction vss generalizing t with
  | nil => rfl
  | cons values vss ih => exact ih (t.put now values)

theorem putAll_tokens (t : Tables) (now : Timestamp) (vss : List (List Instrument)) :
    (t.putAll now vss).tokens = t.tokens := by
  rw [Tables.tokens, putAll_registry, Tables.tokens]

theorem newEntries_putAll (updateRegistry : Bool) (data : List Row) (t : Tables) (now : Timestamp)
    (vss : List (List Instrument)) :
    newEntries updateRegistry data (t.putAll now vss) = newEntries updateRegistry data t := by
  rw [newEntries, newEntries, Tables.subscribed, putAll_registry, Tables.subscribed]

/-- How many operations the transaction takes before its last commit. -/
def workOps (sourceFile : String) (updateRegistry : Bool) (data : List Row) (t : Tables) : ℕ :=
  (fileValues sourceFile data).length + updateOps updateRegistry data t

theorem loadTransaction_completes (h : Loads sourceFile updateRegistry now data t t') :
    ∃ r, (loadTransaction data sourceFile updateRegistry now).Completes (.fresh t)
      (workOps sourceFile updateRegistry data t + 2) r (.fresh t') := by
  obtain ⟨total, hupsert⟩ := upsertBatches_completes now h.distinct 0 t t
  refine ⟨.loaded data.length total t'.instruments.entries.length updateRegistry sourceFile, ?_⟩
  have hinserts := h.inserts
  rw [← newEntries_putAll updateRegistry data t now (fileValues sourceFile data)] at hinserts
  have hupdate := requestedUpdate_completes h.numbered hinserts t
  rw [updateOps, newEntries_putAll] at hupdate
  rw [workOps, Nat.add_assoc]
  refine hupsert.bind (hupdate.bind ?_)
  refine commit_completes.bind (n := 1) ?_
  exact (query_completes (s := .fresh t') _).bind (n := 0) (completes_pure _ _)

theorem loadTransaction_breaks (now : Timestamp) (data : List Row) (t : Tables)
    (h : ∀ t', ¬Loads sourceFile updateRegistry now data t t') :
    (loadTransaction data sourceFile updateRegistry now).Breaks (.fresh t) := by
  by_cases hdistinct : Distinct (fileValues sourceFile data)
  · obtain ⟨total, hupsert⟩ := upsertBatches_completes now hdistinct 0 t t
    refine hupsert.breaks (requestedUpdate_breaks ?_ t).bind
    rintro ⟨hdata, t', hinserts⟩
    refine h t' ⟨hdistinct, hdata, ?_⟩
    rw [← newEntries_putAll updateRegistry data t now (fileValues sourceFile data)]
    exact hinserts
  · exact (upsertBatches_breaks now hdistinct 0 t t).bind

def loadOps (sourceFile : String) (updateRegistry : Bool) (data : List Row) (t : Tables) : ℕ :=
  1 + (workOps sourceFile updateRegistry data t + 2 + 1)

theorem load_eq {file : CsvFile} (hrows : file.rows = .ok rows) (hdata : loadInstruments rows ≠ [])
    (updateRegistry : Bool) (now : Timestamp) :
    loadInstrumentsFromCsv file updateRegistry now = openSession >>= fun _ =>
      finallyDo (rescued (loadTransaction (loadInstruments rows) file.name updateRegistry now)
        (rollback .rollback)) closeSession := by
  unfold loadInstrumentsFromCsv
  rw [hrows]
  exact if_neg hdata

theorem load_completes {file : CsvFile} (hrows : file.rows = .ok rows)
    (hdata : loadInstruments rows ≠ [])
    (h : Loads file.name updateRegistry now (loadInstruments rows) t t') :
    ∃ r, (loadInstrumentsFromCsv file updateRegistry now).Completes (.fresh t)
      (loadOps file.name updateRegistry (loadInstruments rows) t) r (.fresh t') := by
  obtain ⟨r, htransaction⟩ := loadTransaction_completes h
  refine ⟨r, ?_⟩
  rw [load_eq hrows hdata]
  refine rollback_completes.bind ?_
  exact (htransaction.rescued (rollback .rollback)).finallyDo rollback_completes

theorem load_breaks {file : CsvFile} (hrows : file.rows = .ok rows)
    (hdata : loadInstruments rows ≠ []) (updateRegistry : Bool) (now : Timestamp) (t : Tables)
    (h : ∀ t', ¬Loads file.name updateRegistry now (loadInstruments rows) t t') :
    (loadInstrumentsFromCsv file updateRegistry now).Breaks (.fresh t) := by
  rw [load_eq hrows hdata]
  refine rollback_completes.breaks ?_
  exact ((loadTransaction_breaks now _ t h).rescued (rollback .rollback)).finallyDo closeSession

-- ---------------------------------------------------------------------------
-- Inserting
-- ---------------------------------------------------------------------------

structure Insertable (t : Tables) (e : NewEntry) : Prop where
  tradingsymbol : e.tradingsymbol.isSome
  exchange : e.exchange.isSome
  unique : e.instrumentToken ∉ t.tokens
  foreign : (t.instruments.get? e.instrumentToken).isSome

structure Inserted (t t' : Tables) (tokens : List ℤ) : Prop where
  instruments : t'.instruments = t.instruments
  tokens : t'.tokens = t.tokens ++ tokens
  registry : t.registry <+: t'.registry

theorem insert_inserted (h : t.insert e = .ok t') :
    Insertable t e ∧ Inserted t t' [e.instrumentToken] := by
  unfold Tables.insert at h
  split at h
  · rename_i tradingsymbol exchange hsymbol hexchange
    split at h
    · cases h
    · rename_i hunique
      split at h
      · rename_i hforeign
        cases h
        refine ⟨⟨by simp [hsymbol], by simp [hexchange], hunique, hforeign⟩, rfl, ?_, ?_⟩
        · simp [Tables.tokens]
        · exact List.prefix_append _ _
      · cases h
  · cases h

theorem insert_of_insertable (h : Insertable t e) : ∃ t', t.insert e = .ok t' := by
  obtain ⟨tradingsymbol, hsymbol⟩ := Option.isSome_iff_exists.mp h.tradingsymbol
  obtain ⟨exchange, hexchange⟩ := Option.isSome_iff_exists.mp h.exchange
  rw [Tables.insert, hsymbol, hexchange]
  simp only [dif_neg h.unique, dif_pos h.foreign]
  exact ⟨_, rfl⟩

theorem insertAll_cons (t : Tables) (e : NewEntry) (es : List NewEntry) :
    t.insertAll (e :: es) = t.insert e >>= fun t => t.insertAll es := by
  rw [Tables.insertAll, List.foldlM_cons]
  rfl

theorem insertAll_inserted {es : List NewEntry} (h : t.insertAll es = .ok t') :
    Inserted t t' (es.map (·.instrumentToken)) := by
  induction es generalizing t with
  | nil =>
    cases h
    exact ⟨rfl, (List.append_nil _).symm, List.prefix_refl _⟩
  | cons e es ih =>
    rw [insertAll_cons] at h
    cases he : t.insert e with
    | error err => rw [he] at h; cases h
    | ok t₁ =>
      rw [he] at h
      obtain ⟨-, hfirst⟩ := insert_inserted he
      have hrest := ih h
      refine ⟨hrest.instruments.trans hfirst.instruments, ?_, hfirst.registry.trans hrest.registry⟩
      rw [hrest.tokens, hfirst.tokens, List.append_assoc]
      rfl

theorem insertAll_ok_iff (t : Tables) (es : List NewEntry) : (∃ t', t.insertAll es = .ok t') ↔
    (∀ e ∈ es, Insertable t e) ∧ (es.map (·.instrumentToken)).Nodup := by
  induction es generalizing t with
  | nil => exact iff_of_true ⟨t, rfl⟩ ⟨List.forall_mem_nil _, List.nodup_nil⟩
  | cons e es ih =>
    rw [insertAll_cons, List.forall_mem_cons, List.map_cons, List.nodup_cons]
    constructor
    · rintro ⟨t', h⟩
      cases he : t.insert e with
      | error err => rw [he] at h; cases h
      | ok t₁ =>
        rw [he] at h
        obtain ⟨hinsertable, hfirst⟩ := insert_inserted he
        obtain ⟨hrest, hnodup⟩ := (ih t₁).mp ⟨t', h⟩
        refine ⟨⟨hinsertable, fun e' he' => ?_⟩, fun hmem => ?_, hnodup⟩
        · have h' := hrest e' he'
          refine ⟨h'.tradingsymbol, h'.exchange, fun hmem => h'.unique ?_, ?_⟩
          · rw [hfirst.tokens]
            exact List.mem_append_left _ hmem
          · rw [← hfirst.instruments]
            exact h'.foreign
        · obtain ⟨e', he', htoken⟩ := List.mem_map.mp hmem
          refine (hrest e' he').unique ?_
          rw [hfirst.tokens, htoken]
          exact List.mem_append_right _ List.mem_cons_self
    · rintro ⟨⟨hinsertable, hrest⟩, hnew, hnodup⟩
      obtain ⟨t₁, he⟩ := insert_of_insertable hinsertable
      obtain ⟨-, hfirst⟩ := insert_inserted he
      rw [he]
      refine (ih t₁).mpr ⟨fun e' he' => ?_, hnodup⟩
      have h' := hrest e' he'
      refine ⟨h'.tradingsymbol, h'.exchange, fun hmem => ?_, ?_⟩
      · rw [hfirst.tokens] at hmem
        rcases List.mem_append.mp hmem with hmem | hmem
        · exact h'.unique hmem
        · refine hnew ?_
          rw [← List.mem_singleton.mp hmem]
          exact List.mem_map_of_mem he'
      · rw [hfirst.instruments]
        exact h'.foreign

section
variable [Preorder β] {f : Tables → β}

theorem addEntry_ascends (h : ∀ {t t' e}, Tables.insert t e = .ok t' → f t ≤ f t') (e : NewEntry) :
    (addEntry e).Ascends f :=
  ascends_rescued (ascends_bind (statement_ascends fun _ _ => h) fun _ =>
    ascends_bind (commit_ascends _) fun _ => ascends_perform _) (rollback_ascends _)

theorem addNew_ascends (h : ∀ {t t' e}, Tables.insert t e = .ok t' → f t ≤ f t')
    (newTokens : List ℤ) (data : List Row) : (addNew newTokens data).Ascends f := by
  induction data with
  | nil => exact ascends_pure ()
  | cons row rest ih =>
    unfold addNew
    cases row.token with
    | error e => exact ascends_throw e
    | ok token =>
      dsimp only
      split
      · exact ascends_bind (addEntry_ascends h _) fun _ => ih
      · exact ih

theorem updateRegistry_ascends (h : ∀ {t t' e}, Tables.insert t e = .ok t' → f t ≤ f t')
    (data : List Row) : (updateRegistryFromCsv data).Ascends f := by
  refine ascends_bind (query_ascends _ _) fun currentTokens => ?_
  cases data.mapM Row.token with
  | error e => exact ascends_throw e
  | ok csvTokens => exact ascends_bind (addNew_ascends h _ data) fun _ => ascends_pure true

theorem requestedUpdate_ascends (h : ∀ {t t' e}, Tables.insert t e = .ok t' → f t ≤ f t')
    (updateRegistry : Bool) (data : List Row) : (requestedUpdate updateRegistry data).Ascends f := by
  cases updateRegistry with
  | false => exact ascends_pure false
  | true =>
    refine ascends_bind (updateRegistry_ascends h data) fun registryUpdated => ?_
    cases registryUpdated with
    | false => exact ascends_bind (rollback_ascends _) fun _ => ascends_throw _
    | true => exact ascends_pure true

end

end AlphaPanda.Instruments
