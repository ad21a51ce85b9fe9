import AlphaPanda.Instruments.Csv
import AlphaPanda.Lib.Session

/-!
# The instruments and their registry

The two tables of PostgreSQL with their constraints, the repositories over a
session, and the operations of `InstrumentRegistryService` that change the
tables. The timestamps and the ids of registry rows are left out; what an
instrument was last updated at is kept, since every upsert sets it.
-/

namespace AlphaPanda.Instruments

open Coroutine

-- ---------------------------------------------------------------------------
-- The tables
-- ---------------------------------------------------------------------------

structure StoredInstrument where
  instrument : Instrument
  updatedAt : Timestamp
  deriving DecidableEq

structure RegistryEntry where
  instrumentToken : ℤ
  tradingsymbol : String
  exchange : String
  isSubscribed : Bool := true
  priority : ℤ
  addedBy : String
  notes : Option String
  deriving DecidableEq

/-- Both tables: `instrument_token` is the primary key of the one, and unique
and a foreign key in the other. -/
structure Tables where
  instruments : Dict ℤ StoredInstrument
  registry : List RegistryEntry
  unique : (registry.map (·.instrumentToken)).Nodup
  foreign : ∀ e ∈ registry, (instruments.get? e.instrumentToken).isSome
  deriving DecidableEq

def Tables.empty : Tables := ⟨.empty, [], List.nodup_nil, by simp⟩

def Tables.tokens (t : Tables) : List ℤ := t.registry.map (·.instrumentToken)

def Tables.subscribed (t : Tables) : List ℤ :=
  (t.registry.filter (·.isSubscribed)).map (·.instrumentToken)

def Tables.status (t : Tables) (token : ℤ) : Option Bool :=
  (t.registry.find? (·.instrumentToken = token)).map (·.isSubscribed)

structure NewEntry where
  instrumentToken : ℤ
  tradingsymbol : Option String
  exchange : Option String
  priority : ℤ := 100
  notes : Option String := none
  addedBy : String := "system"
  deriving DecidableEq

def integrityError (message : String) : Exc := ⟨"IntegrityError", message, .builtin⟩

/-- Insert a registry row; the constraints may refuse it. -/
def Tables.insert (t : Tables) (e : NewEntry) : Except Exc Tables :=
  match e.tradingsymbol, e.exchange with
  | some tradingsymbol, some exchange =>
    if hunique : e.instrumentToken ∈ t.tokens then
      .error (integrityError "duplicate key value violates unique constraint")
    else if hforeign : (t.instruments.get? e.instrumentToken).isSome then
      .ok
        { instruments := t.instruments
          registry := t.registry ++
            [⟨e.instrumentToken, tradingsymbol, exchange, true, e.priority, e.addedBy, e.notes⟩]
          unique := by
            rw [List.map_append, List.nodup_append]
            refine ⟨t.unique, List.nodup_singleton _, fun a ha b hb => ?_⟩
            rintro rfl
            cases List.mem_singleton.mp hb
            exact hunique ha
          foreign := by
            intro e' he'
            rcases List.mem_append.mp he' with he' | he'
            · exact t.foreign e' he'
            · cases List.mem_singleton.mp he'
              exact hforeign }
    else .error (integrityError "insert or update violates foreign key constraint")
  | _, _ => .error (integrityError "null value violates not-null constraint")

def store (now : Timestamp) (values : List Instrument) (d : Dict ℤ StoredInstrument) :
    Dict ℤ StoredInstrument :=
  values.foldl (fun d i => d.set i.instrumentToken ⟨i, now⟩) d

theorem isSome_store (now : Timestamp) (values : List Instrument) {d : Dict ℤ StoredInstrument}
    (h : (d.get? token).isSome) : ((store now values d).get? token).isSome := by
  induction values generalizing d with
  | nil => exact h
  | cons i values ih =>
    refine ih ?_
    rw [Dict.get?_set]
    split
    · rfl
    · exact h

def Tables.put (now : Timestamp) (values : List Instrument) (t : Tables) : Tables :=
  { t with
    instruments := store now values t.instruments
    foreign := fun e he => isSome_store now values (t.foreign e he) }

def Tables.upsert (now : Timestamp) (values : List Instrument) (t : Tables) : Except Exc Tables :=
  if (values.map (·.instrumentToken)).Nodup then .ok (t.put now values)
  else .error ⟨"ProgrammingError",
    "ON CONFLICT DO UPDATE command cannot affect row a second time", .builtin⟩

def Tables.delete (t : Tables) (token : ℤ) : Tables where
  instruments := t.instruments
  registry := t.registry.filter (·.instrumentToken ≠ token)
  unique := t.unique.sublist (List.filter_sublist.map _)
  foreign e he := t.foreign e (List.mem_filter.mp he).1

def RegistryEntry.subscribe (e : RegistryEntry) (token : ℤ) (isSubscribed : Bool) : RegistryEntry :=
  if e.instrumentToken = token then { e with isSubscribed := isSubscribed } else e

theorem RegistryEntry.subscribe_token (e : RegistryEntry) (token : ℤ) (isSubscribed : Bool) :
    (e.subscribe token isSubscribed).instrumentToken = e.instrumentToken := by
  unfold subscribe
  split <;> rfl

def Tables.subscribe (t : Tables) (token : ℤ) (isSubscribed : Bool) : Tables where
  instruments := t.instruments
  registry := t.registry.map (·.subscribe token isSubscribed)
  unique := by
    rw [List.map_map]
    simpa only [Function.comp_def, RegistryEntry.subscribe_token] using t.unique
  foreign e he := by
    obtain ⟨e', he', rfl⟩ := List.mem_map.mp he
    rw [RegistryEntry.subscribe_token]
    exact t.foreign e' he'

inductive Op where
  | openSession
  | upsert (values : List Instrument)
  | selectTokens
  | selectInstrument (token : ℤ)
  | selectEntry (token : ℤ)
  | insert (e : NewEntry)
  | delete (token : ℤ)
  | update (token : ℤ) (isSubscribed : Bool)
  | commit
  | refresh
  | rollback
  | count
  | close
  deriving DecidableEq

abbrev Handler := Prog (Session Tables) Op Exc

def openSession : Handler Unit := rollback .openSession

/-- `session_context.__aexit__`. What was not committed is gone. -/
def closeSession : Handler Unit := rollback .close

/-- `l[i:i + size]` for each `i` of `range(0, len(l), size)`. -/
def batches (size : ℕ) (l : List α) : List (List α) :=
  (List.range ((l.length + size - 1) / size)).map fun i => (l.drop (i * size)).take size

/-- What is stored of a batch: a row that does not parse is left out. -/
def batchValues (sourceFile : String) (batch : List Row) : List Instrument :=
  batch.filterMap fun row => (Instrument.fromCsvRow row sourceFile).toOption

def upsertValues (now : Timestamp) (values : List Instrument) : Handler Unit :=
  statement (.upsert values) (·.upsert now values)

def upsertBatches (sourceFile : String) (now : Timestamp) (totalProcessed : ℕ) :
    List (List Row) → Handler ℕ
  | [] => pure totalProcessed
  | batch :: rest =>
    let values := batchValues sourceFile batch
    if values = [] then upsertBatches sourceFile now totalProcessed rest
    else do
      upsertValues now values
      upsertBatches sourceFile now (totalProcessed + values.length) rest

def bulkUpsertInstruments (instrumentsData : List Row) (sourceFile : String) (now : Timestamp) :
    Handler ℕ :=
  upsertBatches sourceFile now 0 (batches 1000 instrumentsData)

def countInstruments : Handler ℕ := query .count (·.instruments.entries.length)

def getRegistryTokens : Handler (List ℤ) := query .selectTokens Tables.subscribed

/-- `InstrumentRegistryRepository.add_to_registry`. Whatever a database
operation raises is a `SQLAlchemyError`. -/
def addEntry (e : NewEntry) : Handler Unit :=
  rescued (do
    statement (.insert e) (·.insert e)
    commit .commit
    Prog.perform .refresh) (rollback .rollback)

def changeEntry (token : ℤ) (op : Op) (change : Tables → Tables) : Handler Bool :=
  rescued (do
    let found ← query (.selectEntry token) fun t => decide (token ∈ t.tokens)
    if found then
      statement op fun t => .ok (change t)
      commit .commit
      pure true
    else pure false) (rollback .rollback)

def removeEntry (token : ℤ) : Handler Bool := changeEntry token (.delete token) (·.delete token)

def updateEntry (token : ℤ) (isSubscribed : Bool) : Handler Bool :=
  changeEntry token (.update token isSubscribed) (·.subscribe token isSubscribed)

-- ---------------------------------------------------------------------------
-- Loading a file
-- ---------------------------------------------------------------------------

def Row.field (row : Row) (name : String) : Option String :=
  match row.get? name with
  | some (.str s) => some s
  | _ => none

def Row.entry (row : Row) (token : ℤ) : NewEntry where
  instrumentToken := token
  tradingsymbol := row.field "tradingsymbol"
  exchange := row.field "exchange"
  priority := 100
  notes := some ("Added from CSV: " ++ ((row.get? "name").getD (.str "")).text)
  addedBy := "csv_loader"

def addNew (newTokens : List ℤ) : List Row → Handler Unit
  | [] => pure ()
  | row :: rest => do
    match row.token with
    | .error e => throw e
    | .ok token =>
      if token ∈ newTokens then addEntry (row.entry token)
      addNew newTokens rest

def updateRegistryFromCsv (instrumentsData : List Row) : Handler Bool := do
  let currentTokens ← getRegistryTokens
  match instrumentsData.mapM Row.token with
  | .error e => throw e
  | .ok csvTokens => do
    addNew (csvTokens.filter (· ∉ currentTokens)) instrumentsData
    pure true

/-- What a load returns: for a file with no instruments, and for others. -/
inductive LoadResult where
  | nothing (sourceFile : String)
  | loaded (totalLoaded totalProcessed totalInDatabase : ℕ) (registryUpdated : Bool)
      (sourceFile : String)
  deriving DecidableEq

def requestedUpdate (updateRegistry : Bool) (instrumentsData : List Row) : Handler Bool :=
  if updateRegistry then do
    let registryUpdated ← updateRegistryFromCsv instrumentsData
    if !registryUpdated then do
      rollback .rollback
      throw ⟨"RuntimeError", "Failed to update instrument registry - transaction rolled back",
        .builtin⟩
    else pure registryUpdated
  else pure false

/-- The part of a load that is meant as one transaction. -/
def loadTransaction (instrumentsData : List Row) (sourceFile : String) (updateRegistry : Bool)
    (now : Timestamp) : Handler LoadResult := do
  let totalProcessed ← bulkUpsertInstruments instrumentsData sourceFile now
  let registryUpdated ← requestedUpdate updateRegistry instrumentsData
  commit .commit
  let totalCount ← countInstruments
  pure (.loaded instrumentsData.length totalProcessed totalCount registryUpdated sourceFile)

def loadInstrumentsFromCsv (file : CsvFile) (updateRegistry : Bool) (now : Timestamp) :
    Handler LoadResult :=
  match file.rows with
  | .error e => throw e
  | .ok rows =>
    let instrumentsData := loadInstruments rows
    if instrumentsData = [] then pure (.nothing file.name)
    else do
      openSession
      finallyDo (rescued (loadTransaction instrumentsData file.name updateRegistry now)
        (rollback .rollback)) closeSession

/-- `try: body except: return False finally: close`, where there is a session. -/
def reporting (body : Handler Bool) : Handler Bool := do
  let opened ← tryCatch (do openSession; pure true) fun _ => pure false
  if opened then finallyDo (tryCatch body fun _ => pure false) closeSession
  else pure false

def addToRegistry (token priority : ℤ) (notes : Option String) (addedBy : String) : Handler Bool :=
  reporting do
    let instrument ← query (.selectInstrument token) (·.instruments.get? token)
    match instrument with
    | none => pure false
    | some stored => do
      addEntry
        { instrumentToken := token
          tradingsymbol := some stored.instrument.tradingsymbol
          exchange := some stored.instrument.exchange
          priority := priority
          notes := notes
          addedBy := addedBy }
      pure true

def removeFromRegistry (token : ℤ) : Handler Bool := reporting (removeEntry token)

def updateSubscriptionStatus (token : ℤ) (isSubscribed : Bool) : Handler Bool :=
  reporting (updateEntry token isSubscribed)

end AlphaPanda.Instruments
