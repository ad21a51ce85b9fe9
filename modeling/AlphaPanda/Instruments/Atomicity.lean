import AlphaPanda.Instruments.Load

/-!
# Whether a failed load leaves a trace

`add_to_registry` commits on its own, so the first registry row of a load makes
its upsert last, and each row is committed before the next.
-/

namespace AlphaPanda.Instruments

open Coroutine

/-- If the load raises, both tables are as they were. -/
def Atomic (file : CsvFile) (updateRegistry : Bool) (now : Timestamp) (t : Tables)
    (as : List (Option Exc)) : Prop :=
  ∀ e, ((loadInstrumentsFromCsv file updateRegistry now).exec as (World.start (.fresh t))).result =
      .error e →
    ((loadInstrumentsFromCsv file updateRegistry now).exec as
      (World.start (.fresh t))).world.st.committed = t

def upserted (file : CsvFile) (now : Timestamp) (t : Tables) : Tables :=
  t.putAll now (fileValues file.name file.data)

structure Committing (file : CsvFile) (updateRegistry : Bool) (now : Timestamp) (t : Tables) :
    Prop where
  data : file.data ≠ []
  distinct : Distinct (fileValues file.name file.data)
  numbered : updateRegistry = true → Numbered file.data
  first : ∀ e ∈ (newEntries updateRegistry file.data t).head?, Insertable (upserted file now t) e

/-- How many operations the load takes up to its first commit: the session, the
upsert, the query, and the row with its commit or the last commit. -/
def firstCommitOps (file : CsvFile) (updateRegistry : Bool) (t : Tables) : ℕ :=
  1 + ((fileValues file.name file.data).length + ((if updateRegistry then 1 else 0) +
    if newEntries updateRegistry file.data t = [] then 1 else 2))

def Changes (file : CsvFile) (updateRegistry : Bool) (now : Timestamp) (t : Tables) : Prop :=
  newEntries updateRegistry file.data t ≠ [] ∨ upserted file now t ≠ t

def Unfailing (file : CsvFile) (updateRegistry : Bool) (now : Timestamp) (t : Tables)
    (as : List (Option Exc)) : Prop :=
  (∃ t', Loads file.name updateRegistry now file.data t t') ∧
    succeeds (loadOps file.name updateRegistry file.data t) as

-- ---------------------------------------------------------------------------
-- The registry
-- ---------------------------------------------------------------------------

def registers (token : ℤ) (t : Tables) : Prop := token ∈ t.tokens

theorem insert_registers (h : Tables.insert t e = .ok t') : registers token t ≤ registers token t' := by
  intro hmem
  rw [registers, (insert_inserted h).2.tokens]
  exact List.mem_append_left _ hmem

theorem addAll_ascends (token : ℤ) (es : List NewEntry) :
    (addAll es).Ascends (registers token) := by
  induction es with
  | nil => exact ascends_pure ()
  | cons e es ih => exact ascends_bind (addEntry_ascends insert_registers e) fun _ => ih

theorem addEntry_never (h : ¬Insertable t e) (c : Tables) : (addEntry e).CommitsNever ⟨c, t⟩ := by
  cases he : t.insert e with
  | ok t' => exact absurd (insert_inserted he).1 h
  | error err =>
    refine never_rescued ?_ (rollback_keeps _)
    exact (statement_breaks (s := ⟨c, t⟩) he).never (never_of_keeps (statement_keeps _ _))

theorem addEntry_commitsAfter (h : Insertable t e) (c : Tables) :
    (addEntry e).CommitsAfter ⟨c, t⟩ 2 (registers e.instrumentToken) := by
  obtain ⟨t', he⟩ := insert_of_insertable h
  refine Prog.CommitsAfter.rescued ?_ (rollback_keeps _)
  have hstatement : (statement (.insert e) (·.insert e) : Handler Unit).Completes ⟨c, t⟩ 1 () ⟨c, t'⟩ :=
    statement_completes he
  refine hstatement.commitsAfter (n := 1) (never_of_keeps (statement_keeps _ _)) ?_
  refine commit_commitsAfter fun as l => ?_
  rw [exec_perform]
  show registers e.instrumentToken t'
  rw [registers, (insert_inserted he).2.tokens]
  exact List.mem_append_right _ List.mem_cons_self

theorem addAll_never (h : ∀ e ∈ es.head?, ¬Insertable t e) (c : Tables) :
    (addAll es).CommitsNever ⟨c, t⟩ := by
  cases es with
  | nil => exact fun _ _ => rfl
  | cons e es =>
    cases he : t.insert e with
    | ok t' => exact absurd (insert_inserted he).1 (h e rfl)
    | error err => exact (addEntry_breaks e he c).never (addEntry_never (h e rfl) c)

theorem addAll_commitsAfter (h : Insertable t e) (es : List NewEntry) (c : Tables)
    (hc : c.tokens = t.tokens) :
    (addAll (e :: es)).CommitsAfter ⟨c, t⟩ 2 (registers e.instrumentToken) := by
  refine (addEntry_commitsAfter h c).bind (fun hmem => ?_) (addEntry_ascends insert_registers e)
    fun _ => addAll_ascends _ es
  rw [registers, hc] at hmem
  exact hmem

theorem updateRegistry_never {data : List Row}
    (h : Numbered data → ∀ e ∈ (entriesFor t.subscribed data).head?, ¬Insertable t e) (c : Tables) :
    (updateRegistryFromCsv data).CommitsNever ⟨c, t⟩ := by
  refine (query_completes (s := ⟨c, t⟩) Tables.subscribed).never (never_of_keeps (query_keeps _ _)) ?_
  by_cases hdata : Numbered data
  · have hadd := addAll_never (h hdata) c
    rw [← addNew_tokensOf hdata] at hadd
    rw [mapM_token hdata]
    exact hadd.bind fun _ => leaves_pure
  · obtain ⟨e, he⟩ := mapM_token_error hdata
    rw [he]
    exact fun _ _ => rfl

theorem updateRegistry_commitsAfter {data : List Row} {es : List NewEntry} (hdata : Numbered data)
    (hes : entriesFor t.subscribed data = e :: es) (h : Insertable t e) (c : Tables)
    (hc : c.tokens = t.tokens) :
    (updateRegistryFromCsv data).CommitsAfter ⟨c, t⟩ (1 + 2) (registers e.instrumentToken) := by
  refine (query_completes (s := ⟨c, t⟩) Tables.subscribed).commitsAfter
    (never_of_keeps (query_keeps _ _)) ?_
  have hadd := addAll_commitsAfter h es c hc
  rw [← hes, ← addNew_tokensOf hdata] at hadd
  rw [mapM_token hdata]
  refine hadd.bind (fun hmem => ?_) (addNew_ascends insert_registers _ data) fun _ => ascends_pure true
  rw [registers, hc] at hmem
  exact hmem

theorem requestedUpdate_never {data : List Row}
    (h : (updateRegistry = true → Numbered data) →
      ∀ e ∈ (newEntries updateRegistry data t).head?, ¬Insertable t e) (c : Tables) :
    (requestedUpdate updateRegistry data).CommitsNever ⟨c, t⟩ := by
  cases updateRegistry with
  | false => exact fun _ _ => rfl
  | true =>
    refine (updateRegistry_never (fun hdata => h fun _ => hdata) c).bind fun registryUpdated => ?_
    cases registryUpdated with
    | false => exact leaves_bind (rollback_keeps _) fun _ => leaves_throw
    | true => exact leaves_pure

theorem requestedUpdate_commitsAfter {data : List Row} {es : List NewEntry}
    (hdata : updateRegistry = true → Numbered data)
    (hes : newEntries updateRegistry data t = e :: es) (h : Insertable t e) (c : Tables)
    (hc : c.tokens = t.tokens) :
    (requestedUpdate updateRegistry data).CommitsAfter ⟨c, t⟩ (1 + 2)
      (registers e.instrumentToken) := by
  cases updateRegistry with
  | false => cases hes
  | true =>
    refine (updateRegistry_commitsAfter (hdata rfl) hes h c hc).bind (fun hmem => ?_)
      (updateRegistry_ascends insert_registers data) fun registryUpdated => ?_
    · rw [registers, hc] at hmem
      exact hmem
    · cases registryUpdated with
      | false => exact ascends_bind (rollback_ascends _) fun _ => ascends_throw _
      | true => exact ascends_pure true

-- ---------------------------------------------------------------------------
-- The whole load
-- ---------------------------------------------------------------------------

theorem upsertBatches_keeps (sourceFile : String) (now : Timestamp) (bs : List (List Row)) (n : ℕ) :
    (upsertBatches sourceFile now n bs).Keeps Session.committed := by
  induction bs generalizing n with
  | nil => exact leaves_pure
  | cons batch rest ih =>
    unfold upsertBatches
    dsimp only
    split
    · exact ih n
    · exact leaves_bind (statement_keeps _ _) fun _ => ih _

theorem openSession_completes (t : Tables) :
    openSession.Completes (.fresh t) 1 () (.fresh t) := rollback_completes

theorem load_never_of {file : CsvFile} (hrows : file.rows = .ok rows)
    (hdata : loadInstruments rows ≠ [])
    (h : (loadTransaction (loadInstruments rows) file.name updateRegistry now).CommitsNever
      (.fresh t)) : (loadInstrumentsFromCsv file updateRegistry now).CommitsNever (.fresh t) := by
  rw [load_eq hrows hdata]
  refine (openSession_completes t).never (never_of_keeps (rollback_keeps _)) ?_
  exact never_finallyDo (never_rescued h (rollback_keeps _)) (rollback_keeps _)

theorem load_commitsAfter_of {file : CsvFile} (hrows : file.rows = .ok rows)
    (hdata : loadInstruments rows ≠ [])
    (h : (loadTransaction (loadInstruments rows) file.name updateRegistry now).CommitsAfter
      (.fresh t) n P) :
    (loadInstrumentsFromCsv file updateRegistry now).CommitsAfter (.fresh t) (1 + n) P := by
  rw [load_eq hrows hdata]
  refine (openSession_completes t).commitsAfter (never_of_keeps (rollback_keeps _)) ?_
  exact (h.rescued (rollback_keeps _)).finallyDo (rollback_keeps _)

theorem data_of_rows {file : CsvFile} (h : file.data ≠ []) :
    ∃ rows, file.rows = .ok rows ∧ loadInstruments rows ≠ [] ∧ file.data = loadInstruments rows := by
  cases hrows : file.rows with
  | error e => rw [CsvFile.data, hrows] at h; exact absurd rfl h
  | ok rows =>
    rw [CsvFile.data, hrows] at h
    exact ⟨rows, rfl, h, by rw [CsvFile.data, hrows]⟩

theorem load_of_no_data {file : CsvFile} (h : file.data = []) (updateRegistry : Bool)
    (now : Timestamp) (s : Session Tables) :
    (loadInstrumentsFromCsv file updateRegistry now).CommitsNever s := by
  rw [CsvFile.data] at h
  unfold loadInstrumentsFromCsv
  cases hrows : file.rows with
  | error e => exact fun _ _ => rfl
  | ok rows =>
    rw [hrows] at h
    dsimp only at h ⊢
    rw [if_pos h]
    exact fun _ _ => rfl

theorem load_never {file : CsvFile} (h : ¬Committing file updateRegistry now t) :
    (loadInstrumentsFromCsv file updateRegistry now).CommitsNever (.fresh t) := by
  by_cases hnone : file.data = []
  · exact load_of_no_data hnone updateRegistry now _
  obtain ⟨rows, hrows, hsome, hdata⟩ := data_of_rows hnone
  refine load_never_of hrows hsome ?_
  rw [← hdata]
  have hkeeps := upsertBatches_keeps file.name now (batches 1000 file.data) 0
  by_cases hdistinct : Distinct (fileValues file.name file.data)
  · obtain ⟨total, hupsert⟩ := upsertBatches_completes now hdistinct 0 t t
    refine hupsert.never (never_of_keeps hkeeps) ?_
    -- The rows are refused before or at the first of them.
    have hrefused : ∀ e ∈ (newEntries updateRegistry file.data (upserted file now t)).head?,
        (updateRegistry = true → Numbered file.data) → ¬Insertable (upserted file now t) e := by
      intro e he hnumbered hinsertable
      rw [upserted, newEntries_putAll] at he
      refine h ⟨hnone, hdistinct, hnumbered, fun e' he' => ?_⟩
      cases Option.mem_unique he he'
      exact hinsertable
    have hbreaks : ¬((updateRegistry = true → Numbered file.data) ∧ ∃ t',
        (upserted file now t).insertAll
          (newEntries updateRegistry file.data (upserted file now t)) = .ok t') := by
      rintro ⟨hnumbered, hinserts⟩
      have hinsertable := ((insertAll_ok_iff _ _).mp hinserts).1
      refine h ⟨hnone, hdistinct, hnumbered, fun e he => hinsertable e ?_⟩
      rw [upserted, newEntries_putAll]
      exact List.mem_of_mem_head? he
    exact (requestedUpdate_breaks hbreaks t).never
      (requestedUpdate_never (fun hnumbered e he => hrefused e he hnumbered) t)
  · exact (upsertBatches_breaks now hdistinct 0 t t).never (never_of_keeps hkeeps)

theorem load_commitsAfter_cons {file : CsvFile} (h : Committing file updateRegistry now t)
    (hes : newEntries updateRegistry file.data t = e :: es) :
    (loadInstrumentsFromCsv file updateRegistry now).CommitsAfter (.fresh t)
      (firstCommitOps file updateRegistry t) (registers e.instrumentToken) := by
  obtain ⟨rows, hrows, hsome, hdata⟩ := data_of_rows h.data
  have hupdateRegistry : updateRegistry = true := by
    cases updateRegistry with
    | false => cases hes
    | true => rfl
  have hops : firstCommitOps file updateRegistry t =
      1 + ((fileValues file.name file.data).length + (1 + 2)) := by
    rw [firstCommitOps, hes, hupdateRegistry]
    rfl
  rw [hops]
  refine load_commitsAfter_of hrows hsome ?_
  rw [← hdata]
  obtain ⟨total, hupsert⟩ := upsertBatches_completes now h.distinct 0 t t
  refine hupsert.commitsAfter (never_of_keeps (upsertBatches_keeps _ _ _ _)) ?_
  have hentries := hes
  rw [← newEntries_putAll updateRegistry file.data t now (fileValues file.name file.data)] at hentries
  have hfirst : Insertable (upserted file now t) e := h.first e (by rw [hes]; rfl)
  refine (requestedUpdate_commitsAfter h.numbered hentries hfirst t (putAll_tokens t now _).symm).bind
    (fun hmem => ?_) (requestedUpdate_ascends insert_registers updateRegistry file.data) fun _ => ?_
  · rw [registers, putAll_tokens]
    exact hmem
  · exact ascends_bind (commit_ascends _) fun _ => ascends_bind (query_ascends _ _) fun _ =>
      ascends_pure _

theorem load_commitsAfter_nil {file : CsvFile} (h : Committing file updateRegistry now t)
    (hes : newEntries updateRegistry file.data t = []) :
    (loadInstrumentsFromCsv file updateRegistry now).CommitsAfter (.fresh t)
      (firstCommitOps file updateRegistry t) (· = upserted file now t) := by
  obtain ⟨rows, hrows, hsome, hdata⟩ := data_of_rows h.data
  have hops : firstCommitOps file updateRegistry t =
      1 + ((fileValues file.name file.data).length + (updateOps updateRegistry file.data t + 1)) := by
    rw [firstCommitOps, updateOps, hes]
    rfl
  rw [hops]
  refine load_commitsAfter_of hrows hsome ?_
  rw [← hdata]
  obtain ⟨total, hupsert⟩ := upsertBatches_completes now h.distinct 0 t t
  refine hupsert.commitsAfter (never_of_keeps (upsertBatches_keeps _ _ _ _)) ?_
  have hentries : newEntries updateRegistry file.data (upserted file now t) = [] := by
    rw [upserted, newEntries_putAll, hes]
  have hinserts : (upserted file now t).insertAll
      (newEntries updateRegistry file.data (upserted file now t)) = .ok (upserted file now t) := by
    rw [hentries]
    rfl
  have hupdate := requestedUpdate_completes h.numbered hinserts t
  rw [updateOps, upserted, newEntries_putAll, ← updateOps, hes] at hupdate
  refine hupdate.commitsAfter (requestedUpdate_never ?_ t) ?_
  · intro _ e he
    rw [← upserted, hentries] at he
    cases he
  · refine commit_commitsAfter fun as l => ?_
    exact leaves_bind (query_keeps _ _) (fun _ => leaves_pure) as ⟨.fresh _, l⟩

theorem load_ok_iff_unfailing {file : CsvFile} (h : file.data ≠ []) (updateRegistry : Bool)
    (now : Timestamp) (t : Tables) (as : List (Option Exc)) :
    (∃ r, ((loadInstrumentsFromCsv file updateRegistry now).exec as
      (World.start (.fresh t))).result = .ok r) ↔ Unfailing file updateRegistry now t as := by
  obtain ⟨rows, hrows, hsome, hdata⟩ := data_of_rows h
  rw [Unfailing, hdata]
  by_cases hloads : ∃ t', Loads file.name updateRegistry now (loadInstruments rows) t t'
  · obtain ⟨t', hloaded⟩ := hloads
    obtain ⟨r, hload⟩ := load_completes hrows hsome hloaded
    constructor
    · rintro ⟨r', hr'⟩
      refine ⟨⟨t', hloaded⟩, ?_⟩
      by_contra hfails
      obtain ⟨e, he⟩ := hload.raises as [] (Bool.not_eq_true _ ▸ hfails)
      cases he.symm.trans hr'
    · rintro ⟨-, hsucceeds⟩
      obtain ⟨l, hreturns⟩ := hload.returns as [] hsucceeds
      exact ⟨r, congrArg Outcome.result hreturns⟩
  · obtain ⟨e, he⟩ := load_breaks hrows hsome updateRegistry now t (not_exists.mp hloads) as []
    refine iff_of_false ?_ fun hunfailing => hloads hunfailing.1
    rintro ⟨r, hr⟩
    cases he.symm.trans hr

/-- A load leaves no trace of a failure exactly where it does not fail after its
first commit, or that commit changed nothing. -/
theorem atomic_iff (file : CsvFile) (updateRegistry : Bool) (now : Timestamp) (t : Tables)
    (as : List (Option Exc)) : Atomic file updateRegistry now t as ↔
      (Committing file updateRegistry now t → succeeds (firstCommitOps file updateRegistry t) as →
        Changes file updateRegistry now t → Unfailing file updateRegistry now t as) := by
  constructor
  · intro hatomic hcommitting hfirst hchanges
    rw [← load_ok_iff_unfailing hcommitting.data]
    cases hresult : ((loadInstrumentsFromCsv file updateRegistry now).exec as
        (World.start (.fresh t))).result with
    | ok r => exact ⟨r, rfl⟩
    | error e =>
      have hkept := hatomic e hresult
      cases hes : newEntries updateRegistry file.data t with
      | nil =>
        have hcommitted := (load_commitsAfter_nil hcommitting hes).commits as [] hfirst
        exact absurd (hcommitted.symm.trans hkept) (hchanges.resolve_left fun hne => hne hes)
      | cons e es =>
        have hregistered := (load_commitsAfter_cons hcommitting hes).commits as [] hfirst
        have hnew := (hcommitting.first e (by rw [hes]; rfl)).unique
        rw [upserted, putAll_tokens] at hnew
        exact absurd (hkept ▸ hregistered) hnew
  · intro h e he
    by_cases hcommitting : Committing file updateRegistry now t
    · have hfails : ¬Unfailing file updateRegistry now t as := by
        rw [← load_ok_iff_unfailing hcommitting.data, he]
        rintro ⟨r, hr⟩
        cases hr
      by_cases hfirst : succeeds (firstCommitOps file updateRegistry t) as
      · have hsame : ¬Changes file updateRegistry now t := fun hchanges =>
          hfails (h hcommitting hfirst hchanges)
        rw [Changes, not_or, not_not, not_not] at hsame
        have hcommitted := (load_commitsAfter_nil hcommitting hsame.1).commits as [] hfirst
        exact hcommitted.trans hsame.2
      · have hfirst := Bool.not_eq_true _ ▸ hfirst
        cases hes : newEntries updateRegistry file.data t with
        | nil => exact ((load_commitsAfter_nil hcommitting hes).aborts as [] hfirst).2
        | cons e es => exact ((load_commitsAfter_cons hcommitting hes).aborts as [] hfirst).2
    · exact load_never hcommitting as []

def indicesFile : CsvFile where
  name := "instruments.csv"
  rows := .ok [
    ⟨.ofList [("instrument_token", some "256265"), ("tradingsymbol", some "NIFTY 50"),
      ("name", some "NIFTY 50"), ("exchange", some "NSE")], false⟩,
    ⟨.ofList [("instrument_token", some "260105"), ("tradingsymbol", some "NIFTY BANK"),
      ("name", some "NIFTY BANK"), ("exchange", some "NSE")], false⟩]

def connectionLost : Exc := ⟨"OperationalError", "server closed the connection unexpectedly", .builtin⟩

/-- The insertion of the second registry row fails, and the first one stays. -/
theorem second_insertion_fails : ¬∀ file updateRegistry now t as,
    Atomic file updateRegistry now t as := by
  intro hclaim
  have hatomic := hclaim indicesFile true ⟨"2026-01-05", "09:00:00"⟩ .empty
    [none, none, none, none, none, none, some connectionLost]
  rw [Atomic] at hatomic
  generalize hload : (loadInstrumentsFromCsv indicesFile true ⟨"2026-01-05", "09:00:00"⟩).exec
    [none, none, none, none, none, none, some connectionLost] (World.start (.fresh .empty)) = o
    at hatomic
  have hfails : o.result.toOption = none ∧ o.world.st.committed ≠ .empty := by
    rw [← hload]
    decide +kernel
  cases hresult : o.result with
  | ok r => rw [hresult] at hfails; cases hfails.1
  | error e => exact hfails.2 (hatomic e hresult)

end AlphaPanda.Instruments
