import AlphaPanda.Instruments.Acceptance
import AlphaPanda.Lib.Keyed

/-!
# Upserts

`upsert_instrument` and `bulk_upsert_instruments` on the columns of
`instruments`, over any database: what a column stores of an attribute's value,
and which values it refuses, is left to the database.
-/

namespace AlphaPanda.Instruments

-- ---------------------------------------------------------------------------
-- Columns
-- ---------------------------------------------------------------------------

inductive Column where
  | exchangeToken
  | tradingsymbol
  | name
  | exchange
  | segment
  | instrumentType
  | lastPrice
  | tickSize
  | lotSize
  | expiry
  | strike
  | isActive
  | sourceFile
  deriving DecidableEq

def Column.all : List Column :=
  [.exchangeToken, .tradingsymbol, .name, .exchange, .segment, .instrumentType, .lastPrice, .tickSize,
   .lotSize, .expiry, .strike, .isActive, .sourceFile]

theorem Column.mem_all (c : Column) : c ∈ Column.all := by cases c <;> decide

instance (P : Column → Prop) [DecidablePred P] : Decidable (∀ c, P c) :=
  decidable_of_iff (∀ c ∈ Column.all, P c) ⟨fun h c => h c c.mem_all, fun h c _ => h c⟩

def Column.field : Column → String
  | .exchangeToken => "exchange_token"
  | .tradingsymbol => "tradingsymbol"
  | .name => "name"
  | .exchange => "exchange"
  | .segment => "segment"
  | .instrumentType => "instrument_type"
  | .lastPrice => "last_price"
  | .tickSize => "tick_size"
  | .lotSize => "lot_size"
  | .expiry => "expiry"
  | .strike => "strike"
  | .isActive => "is_active"
  | .sourceFile => "source_file"

/-- What an attribute of an `Instrument` object holds: a number or a date that
was parsed, or a value as it came. -/
inductive Attr where
  | raw (v : Value)
  | decimal (d : Decimal)
  | date (d : ℕ × ℕ × ℕ)
  deriving DecidableEq

def Attr.ofOption (f : α → Attr) : Option α → Attr
  | some a => f a
  | none => .raw .null

def Instrument.attr (i : Instrument) : Column → Attr
  | .exchangeToken => .raw (.int i.exchangeToken)
  | .tradingsymbol => .raw (.str i.tradingsymbol)
  | .name => .raw (.str i.name)
  | .exchange => .raw (.str i.exchange)
  | .segment => .ofOption (fun s => .raw (.str s)) i.segment
  | .instrumentType => .ofOption (fun s => .raw (.str s)) i.instrumentType
  | .lastPrice => .ofOption .decimal i.lastPrice
  | .tickSize => .ofOption .decimal i.tickSize
  | .lotSize => .ofOption (fun n => .raw (.int n)) i.lotSize
  | .expiry => .ofOption .date i.expiry
  | .strike => .ofOption .decimal i.strike
  | .isActive => .ofOption (fun b => .raw (.bool b)) i.isActive
  | .sourceFile => .raw (.str i.sourceFile)

/-- What a flush makes of a new object: `is_active` has a default. -/
def Instrument.flushed (i : Instrument) : Instrument :=
  { i with isActive := some (i.isActive.getD true) }

/-- What a database stores in a column; `none` where it raises. A token that is
sent is the integer that `int()` makes of it. -/
structure Database (Cell : Type) where
  encode : Column → Attr → Option Cell
  timestamp : Value → Bool
  token : Value → Option ℤ
  token_int : token v = some n → toInt v = .ok n

abbrev Table (Cell : Type) := Dict ℤ (Column → Cell)

def dbapiError (message : String) : Exc := ⟨"DBAPIError", message, .builtin⟩

/-- A row of cells, if none was refused. -/
def collect (cells : Column → Option Cell) : Except Exc (Column → Cell) :=
  if h : ∀ c, (cells c).isSome then .ok fun c => (cells c).get (h c)
  else .error (dbapiError "a value does not fit its column")

theorem collect_ok_iff {cells : Column → Option Cell} {row : Column → Cell} :
    collect cells = .ok row ↔ ∀ c, cells c = some (row c) := by
  unfold collect
  constructor
  · intro h c
    split at h
    · cases h
      exact (Option.some_get _).symm
    · cases h
  · intro h
    have hsome : ∀ c, (cells c).isSome := fun c => Option.isSome_of_eq_some (h c)
    rw [dif_pos hsome]
    refine congrArg _ (funext fun c => ?_)
    exact Option.get_of_eq_some (hsome c) (h c)

namespace Database

variable (db : Database Cell)

def sendToken (v : Value) : Except Exc ℤ :=
  match db.token v with
  | some n => .ok n
  | none => .error (dbapiError "an integer is required")

def inserted (i : Instrument) : Except Exc (Column → Cell) := do
  let _ ← db.sendToken (.int i.instrumentToken)
  collect fun c => db.encode c (i.attr c)

/-- What `setattr` leaves in an attribute that a row has a key for. -/
def assigned (sourceFile : String) (row : Row) (c : Column) : Option Attr :=
  if c = .sourceFile then some (.raw (.str sourceFile)) else (row.get? c.field).map .raw

def timestampsOk (row : Row) : Bool :=
  ["created_at", "updated_at"].all fun field => (row.get? field).all db.timestamp

/-- The flush of an existing object that a row was copied onto. -/
def updated (sourceFile : String) (row : Row) (existing : Column → Cell) :
    Except Exc (Column → Cell) :=
  if db.timestampsOk row then
    collect fun c =>
      match assigned sourceFile row c with
      | some a => db.encode c a
      | none => some (existing c)
  else .error (dbapiError "a datetime instance is required")

def createInstrument (t : Table Cell) (i : Instrument) : Except Exc (Table Cell) := do
  let cells ← db.inserted i.flushed
  if (t.get? i.instrumentToken).isSome then
    throw (integrityError "duplicate key value violates unique constraint")
  else pure (t.set i.instrumentToken cells)

def upsertInstrument (sourceFile : String) (t : Table Cell) (row : Row) :
    Except Exc (Table Cell) := do
  match row.get? "instrument_token" with
  | none => throw ⟨"KeyError", "'instrument_token'", .builtin⟩
  | some v =>
    let token ← db.sendToken v
    match t.get? token with
    | some existing => do
      let cells ← db.updated sourceFile row existing
      pure (t.set token cells)
    | none => do
      let i ← Instrument.fromCsvRow row sourceFile
      db.createInstrument t i

/-- `INSERT … ON CONFLICT (instrument_token) DO UPDATE` of all columns. -/
def upsertMany (t : Table Cell) (values : List Instrument) : Except Exc (Table Cell) :=
  if (values.map (·.instrumentToken)).Nodup then
    values.foldlM (fun t i => do
      let cells ← db.inserted i
      pure (t.set i.instrumentToken cells)) t
  else .error ⟨"ProgrammingError",
    "ON CONFLICT DO UPDATE command cannot affect row a second time", .builtin⟩

def upsertBatch (sourceFile : String) (t : Table Cell) (batch : List Row) :
    Except Exc (Table Cell) :=
  let values := batchValues sourceFile batch
  if values = [] then .ok t else db.upsertMany t values

def bulkUpsertInstruments (sourceFile : String) (size : ℕ) (t : Table Cell) (data : List Row) :
    Except Exc (Table Cell) :=
  (batches size data).foldlM (db.upsertBatch sourceFile) t

-- ---------------------------------------------------------------------------
-- Rows that are accepted
-- ---------------------------------------------------------------------------

end Database

/-- A row that `from_csv_row` accepts, with the instrument it makes of it. -/
structure Accepted (sourceFile : String) where
  row : Row
  instrument : Instrument
  accepted : Instrument.fromCsvRow row sourceFile = .ok instrument

def Accepted.token (r : Accepted sourceFile) : ℤ := r.instrument.instrumentToken

theorem Accepted.toInt_token (r : Accepted sourceFile) :
    toInt ((r.row.get? "instrument_token").getD .null) = .ok r.token := by
  have h := r.accepted
  simp only [Instrument.fromCsvRow, bind_ok, pure_ok] at h
  obtain ⟨_, -, n, htoken, _, -, _, -, _, -, _, -, _, -, _, -, _, -, _, -, _, -, _, -, hi⟩ := h
  rw [Accepted.token, ← hi]
  exact htoken

/-- Nothing that `from_csv_row` reads says whether an instrument is active. -/
theorem Accepted.isActive (r : Accepted sourceFile) : r.instrument.isActive = none := by
  have h := r.accepted
  simp only [Instrument.fromCsvRow, bind_ok, pure_ok] at h
  obtain ⟨_, -, _, -, _, -, _, -, _, -, _, -, _, -, _, -, _, -, _, -, _, -, _, -, hi⟩ := h
  rw [← hi]

namespace Database

variable {Cell : Type} (db : Database Cell) (sourceFile : String)

def upsertCells (existing : Option (Column → Cell)) (r : Accepted sourceFile) :
    Except Exc (Column → Cell) := do
  let _ ← db.sendToken ((r.row.get? "instrument_token").getD .null)
  match existing with
  | some existing => db.updated sourceFile r.row existing
  | none => db.inserted r.instrument.flushed

theorem sendToken_ok_iff {v : Value} : db.sendToken v = .ok n ↔ db.token v = some n := by
  unfold sendToken
  cases db.token v <;> simp

theorem upsertInstrument_ok_iff (r : Accepted sourceFile) {t t' : Table Cell} :
    db.upsertInstrument sourceFile t r.row = .ok t' ↔
      Keyed.apply Accepted.token (db.upsertCells sourceFile) t r = .ok t' := by
  have hint := r.toInt_token
  simp only [upsertInstrument, Keyed.apply, upsertCells, bind_ok, pure_ok, sendToken_ok_iff]
  cases hv : r.row.get? "instrument_token" with
  | none =>
    rw [hv] at hint
    cases hint
  | some v =>
    rw [hv] at hint
    simp only [Option.getD_some, bind_ok, sendToken_ok_iff]
    constructor
    · rintro ⟨n, hn, h⟩
      cases hint.symm.trans (db.token_int hn)
      cases hget : t.get? r.token with
      | some existing =>
        rw [hget] at h
        simp only [bind_ok, pure_ok] at h
        obtain ⟨cells, hcells, ht⟩ := h
        exact ⟨cells, ⟨r.token, hn, hcells⟩, ht⟩
      | none =>
        rw [hget] at h
        simp only [bind_ok, r.accepted, Except.ok.injEq, createInstrument] at h
        obtain ⟨i, rfl, cells, hcells, ht⟩ := h
        rw [if_neg (by change ¬(t.get? r.token).isSome; simp [hget]), pure_ok] at ht
        exact ⟨cells, ⟨r.token, hn, hcells⟩, ht⟩
    · rintro ⟨cells, ⟨n, hn, h⟩, ht⟩
      cases hint.symm.trans (db.token_int hn)
      refine ⟨r.token, hn, ?_⟩
      cases hget : t.get? r.token with
      | some existing =>
        rw [hget] at h
        simp only [bind_ok, pure_ok]
        exact ⟨cells, h, ht⟩
      | none =>
        rw [hget] at h
        simp only [bind_ok, r.accepted, Except.ok.injEq, createInstrument]
        refine ⟨_, rfl, cells, h, ?_⟩
        rw [if_neg (by change ¬(t.get? r.token).isSome; simp [hget]), pure_ok]
        exact ht

def upsertInstruments (t : Table Cell) (data : List Row) : Except Exc (Table Cell) :=
  data.foldlM (db.upsertInstrument sourceFile) t

def bulkCells (_ : Option (Column → Cell)) (r : Accepted sourceFile) : Except Exc (Column → Cell) :=
  db.inserted r.instrument

variable {db} {sourceFile} {t t' : Table Cell}

theorem upsertInstruments_ok_iff (rows : List (Accepted sourceFile)) :
    db.upsertInstruments sourceFile t (rows.map (·.row)) = .ok t' ↔
      Keyed.run Accepted.token (db.upsertCells sourceFile) t rows = .ok t' := by
  unfold upsertInstruments Keyed.run
  induction rows generalizing t with
  | nil => rfl
  | cons r rows ih =>
    simp only [List.map_cons, List.foldlM_cons, bind_ok, upsertInstrument_ok_iff, ih]

theorem batchValues_accepted (rows : List (Accepted sourceFile)) :
    batchValues sourceFile (rows.map (·.row)) = rows.map (·.instrument) := by
  rw [batchValues, List.filterMap_map, ← List.filterMap_eq_map]
  refine List.filterMap_congr fun r _ => ?_
  simp [r.accepted, Except.toOption]

theorem upsertBatch_ok_iff (batch : List (Accepted sourceFile)) :
    db.upsertBatch sourceFile t (batch.map (·.row)) = .ok t' ↔ (batch.map Accepted.token).Nodup ∧
      Keyed.run Accepted.token (db.bulkCells sourceFile) t batch = .ok t' := by
  have htokens : (batch.map (·.instrument)).map (·.instrumentToken) = batch.map Accepted.token := by
    rw [List.map_map]
    rfl
  simp only [upsertBatch, batchValues_accepted, upsertMany, htokens]
  by_cases hnil : batch = []
  · subst hnil
    simp [Keyed.run, pure, Except.pure]
  · rw [if_neg (by simpa using hnil)]
    by_cases hnodup : (batch.map Accepted.token).Nodup
    · rw [if_pos hnodup, List.foldlM_map]
      exact (and_iff_right hnodup).symm
    · simp [hnodup]

theorem upsertBatches_ok_iff (bs : List (List (Accepted sourceFile))) :
    (bs.map fun batch => batch.map (·.row)).foldlM (db.upsertBatch sourceFile) t = .ok t' ↔
      (∀ batch ∈ bs, (batch.map Accepted.token).Nodup) ∧
        Keyed.run Accepted.token (db.bulkCells sourceFile) t bs.flatten = .ok t' := by
  induction bs generalizing t with
  | nil => simp [Keyed.run]
  | cons batch bs ih =>
    rw [List.map_cons, List.foldlM_cons, bind_ok, List.flatten_cons, Keyed.run, List.foldlM_append,
      bind_ok]
    simp only [upsertBatch_ok_iff, ih, List.mem_cons, forall_eq_or_imp, Keyed.run]
    constructor
    · rintro ⟨t₁, ⟨hnodup, hbatch⟩, hnodups, hrest⟩
      exact ⟨⟨hnodup, hnodups⟩, t₁, hbatch, hrest⟩
    · rintro ⟨⟨hnodup, hnodups⟩, t₁, hbatch, hrest⟩
      exact ⟨t₁, ⟨hnodup, hbatch⟩, hnodups, hrest⟩

theorem batches_map (size : ℕ) (f : α → β) (l : List α) :
    batches size (l.map f) = (batches size l).map fun batch => batch.map f := by
  simp [batches]

theorem bulkUpsertInstruments_ok_iff (size : ℕ) (rows : List (Accepted sourceFile)) :
    db.bulkUpsertInstruments sourceFile (size + 1) t (rows.map (·.row)) = .ok t' ↔
      (∀ batch ∈ batches (size + 1) rows, (batch.map Accepted.token).Nodup) ∧
        Keyed.run Accepted.token (db.bulkCells sourceFile) t rows = .ok t' := by
  rw [bulkUpsertInstruments, batches_map, upsertBatches_ok_iff, batches_flatten]

end Database

-- ---------------------------------------------------------------------------
-- The rows of one token
-- ---------------------------------------------------------------------------

section
variable {Cell : Type} (db : Database Cell) (sourceFile : String)

/-- What the rows assign to a column last. -/
def newest (c : Column) : List (Accepted sourceFile) → Option Attr
  | [] => none
  | r :: rs => newest c rs <|> Database.assigned sourceFile r.row c

structure Assignable (r : Accepted sourceFile) : Prop where
  timestamps : db.timestampsOk r.row = true
  cells : ∀ c a, Database.assigned sourceFile r.row c = some a → (db.encode c a).isSome

def Findable (r : Accepted sourceFile) : Prop :=
  (db.token ((r.row.get? "instrument_token").getD .null)).isSome

structure Storable (i : Instrument) : Prop where
  token : (db.token (.int i.instrumentToken)).isSome
  cells : ∀ c, (db.encode c (i.attr c)).isSome

variable {db} {sourceFile}

theorem inserted_ok_iff : db.inserted i = .ok cells ↔
    (db.token (.int i.instrumentToken)).isSome ∧ ∀ c, db.encode c (i.attr c) = some (cells c) := by
  simp only [Database.inserted, bind_ok, Database.sendToken_ok_iff, collect_ok_iff,
    Option.isSome_iff_exists]
  exact exists_and_right

theorem storable_iff : Storable db i ↔ ∃ cells, db.inserted i = .ok cells := by
  constructor
  · rintro ⟨htoken, hcells⟩
    exact ⟨fun c => (db.encode c (i.attr c)).get (hcells c),
      inserted_ok_iff.mpr ⟨htoken, fun c => (Option.some_get _).symm⟩⟩
  · rintro ⟨cells, h⟩
    obtain ⟨htoken, hcells⟩ := inserted_ok_iff.mp h
    exact ⟨htoken, fun c => Option.isSome_of_eq_some (hcells c)⟩

theorem updated_ok_iff {existing cells : Column → Cell} :
    db.updated sourceFile row existing = .ok cells ↔ db.timestampsOk row = true ∧
      ∀ c, (Database.assigned sourceFile row c).elim (some (existing c)) (db.encode c) =
        some (cells c) := by
  unfold Database.updated
  split
  · rename_i h
    rw [collect_ok_iff, and_iff_right h]
    refine forall_congr' fun c => ?_
    cases Database.assigned sourceFile row c <;> rfl
  · rename_i h
    simp [h]

theorem runKey_updated {s : Column → Cell} {rs : List (Accepted sourceFile)} :
    Keyed.runKey (db.upsertCells sourceFile) (some s) rs = .ok (some s') ↔
      (∀ r ∈ rs, Findable db sourceFile r ∧ Assignable db sourceFile r) ∧
        ∀ c, (newest sourceFile c rs).elim (some (s c)) (db.encode c) = some (s' c) := by
  induction rs generalizing s with
  | nil =>
    simp only [Keyed.runKey, Except.ok.injEq, Option.some.injEq, List.not_mem_nil, false_imp_iff,
      implies_true, true_and, newest, Option.elim_none]
    exact funext_iff
  | cons r rs ih =>
    rw [Keyed.runKey_cons]
    simp only [Database.upsertCells, bind_ok, Database.sendToken_ok_iff, updated_ok_iff, ih,
      List.mem_cons, forall_eq_or_imp]
    constructor
    · rintro ⟨s₁, ⟨n, hn, htimestamps, hs₁⟩, hrest, hs'⟩
      refine ⟨⟨⟨Option.isSome_of_eq_some hn, htimestamps, fun c a ha => ?_⟩, hrest⟩, fun c => ?_⟩
      · have hc := hs₁ c
        rw [ha] at hc
        exact Option.isSome_of_eq_some hc
      · rw [← hs' c, newest]
        cases newest sourceFile c rs with
        | some a => rfl
        | none => exact hs₁ c
    · rintro ⟨⟨⟨hfound, htimestamps, hcells⟩, hrest⟩, hs'⟩
      obtain ⟨n, hn⟩ := Option.isSome_iff_exists.mp hfound
      have hsome : ∀ c, ∃ x, (Database.assigned sourceFile r.row c).elim (some (s c)) (db.encode c) =
          some x := by
        intro c
        cases ha : Database.assigned sourceFile r.row c with
        | none => exact ⟨_, rfl⟩
        | some a => exact Option.isSome_iff_exists.mp (hcells c a ha)
      choose s₁ hs₁ using hsome
      refine ⟨s₁, ⟨n, hn, htimestamps, hs₁⟩, hrest, fun c => ?_⟩
      rw [← hs' c, newest]
      cases newest sourceFile c rs with
      | some a => rfl
      | none => exact (hs₁ c).symm

variable (db) (sourceFile)

/-- The rows that are copied onto a stored row: all but one that creates it. -/
def copied (stored : Option (Column → Cell)) (rs : List (Accepted sourceFile)) :
    List (Accepted sourceFile) :=
  if stored.isSome then rs else rs.tail

def start (stored : Option (Column → Cell)) (rs : List (Accepted sourceFile)) (c : Column) :
    Option Cell :=
  match stored with
  | some s => some (s c)
  | none => rs.head?.bind fun r => db.encode c (r.instrument.flushed.attr c)

/-- The rows of one token can be stored in both ways, and in every column what
is copied last, or stood there before, is stored as what is parsed of the last
row. -/
structure Coincides (stored : Option (Column → Cell)) (rs : List (Accepted sourceFile)) : Prop where
  storable : ∀ r ∈ rs, Storable db r.instrument
  findable : ∀ r ∈ rs, Findable db sourceFile r
  created : stored = none → ∀ r, rs.head? = some r → Storable db r.instrument.flushed
  assignable : ∀ r ∈ copied sourceFile stored rs, Assignable db sourceFile r
  columns : ∀ last, rs.getLast? = some last → ∀ c,
    (newest sourceFile c (copied sourceFile stored rs)).elim (start db sourceFile stored rs c)
      (db.encode c) = db.encode c (last.instrument.attr c)

variable {db} {sourceFile}

theorem Coincides.isActive_of_new (h : Coincides db sourceFile none rs) (hrs : rs ≠ [])
    (hnew : newest sourceFile .isActive rs.tail = none) :
    db.encode .isActive (.raw (.bool true)) = db.encode .isActive (.raw .null) := by
  cases rs with
  | nil => exact absurd rfl hrs
  | cons r rs =>
    obtain ⟨last, hlast⟩ : ∃ last, (r :: rs).getLast? = some last :=
      ⟨_, List.getLast?_eq_some_getLast (List.cons_ne_nil r rs)⟩
    have hcolumn := h.columns last hlast .isActive
    rw [List.tail_cons] at hnew
    simp only [copied, Option.isSome_none, Bool.false_eq_true, if_false, List.tail_cons, hnew,
      Option.elim_none, start, List.head?_cons, Option.bind_some, Instrument.flushed,
      Instrument.attr, r.isActive, last.isActive, Option.getD_none, Attr.ofOption] at hcolumn
    exact hcolumn

theorem runKey_bulk {stored s : Option (Column → Cell)} {rs : List (Accepted sourceFile)} :
    Keyed.runKey (db.bulkCells sourceFile) stored rs = .ok s ↔
      (∀ r ∈ rs, Storable db r.instrument) ∧ (rs = [] → s = stored) ∧
        ∀ last, rs.getLast? = some last → ∃ cells, db.inserted last.instrument = .ok cells ∧
          s = some cells := by
  simp only [storable_iff]
  exact Keyed.runKey_const

theorem runKey_upsert {stored : Option (Column → Cell)} {r : Accepted sourceFile}
    {rs : List (Accepted sourceFile)} {s : Column → Cell} :
    Keyed.runKey (db.upsertCells sourceFile) stored (r :: rs) = .ok (some s) ↔
      (∀ r' ∈ r :: rs, Findable db sourceFile r') ∧
        (stored = none → Storable db r.instrument.flushed) ∧
        (∀ r' ∈ copied sourceFile stored (r :: rs), Assignable db sourceFile r') ∧
        ∀ c, (newest sourceFile c (copied sourceFile stored (r :: rs))).elim
          (start db sourceFile stored (r :: rs) c) (db.encode c) = some (s c) := by
  cases stored with
  | some existing =>
    rw [runKey_updated]
    simp only [copied, start, Option.isSome_some, if_true, reduceCtorEq, false_imp_iff, true_and]
    constructor
    · rintro ⟨hrows, hcells⟩
      exact ⟨fun r' h => (hrows r' h).1, fun r' h => (hrows r' h).2, hcells⟩
    · rintro ⟨hfound, hassigned, hcells⟩
      exact ⟨fun r' h => ⟨hfound r' h, hassigned r' h⟩, hcells⟩
  | none =>
    rw [Keyed.runKey_cons]
    simp only [Database.upsertCells, bind_ok, Database.sendToken_ok_iff, runKey_updated, copied,
      start, Option.isSome_none, Bool.false_eq_true, if_false, List.tail_cons, List.head?_cons,
      Option.bind_some, true_imp_iff, List.mem_cons, forall_eq_or_imp]
    constructor
    · rintro ⟨created, ⟨n, hn, hcreated⟩, hrows, hcells⟩
      refine ⟨⟨Option.isSome_of_eq_some hn, fun r' h => (hrows r' h).1⟩,
        storable_iff.mpr ⟨created, hcreated⟩, fun r' h => (hrows r' h).2, fun c => ?_⟩
      rw [(inserted_ok_iff.mp hcreated).2 c]
      exact hcells c
    · rintro ⟨⟨hfound, hfounds⟩, hcreated, hassigned, hcells⟩
      obtain ⟨n, hn⟩ := Option.isSome_iff_exists.mp hfound
      obtain ⟨created, hcreated⟩ := storable_iff.mp hcreated
      refine ⟨created, ⟨n, hn, hcreated⟩, fun r' h => ⟨hfounds r' h, hassigned r' h⟩, fun c => ?_⟩
      rw [← (inserted_ok_iff.mp hcreated).2 c]
      exact hcells c

theorem coincides_iff (stored : Option (Column → Cell)) (rs : List (Accepted sourceFile)) :
    (∃ s, Keyed.runKey (db.bulkCells sourceFile) stored rs = .ok s ∧
        Keyed.runKey (db.upsertCells sourceFile) stored rs = .ok s) ↔
      Coincides db sourceFile stored rs := by
  cases rs with
  | nil =>
    refine iff_of_true ⟨stored, rfl, rfl⟩ ⟨by simp, by simp, by simp, ?_, by simp⟩
    intro r hr
    unfold copied at hr
    split at hr <;> cases hr
  | cons r rs =>
    obtain ⟨last, hlast⟩ : ∃ last, (r :: rs).getLast? = some last :=
      ⟨_, List.getLast?_eq_some_getLast (List.cons_ne_nil r rs)⟩
    constructor
    · rintro ⟨s, hbulk, hupsert⟩
      obtain ⟨hstorable, -, hs⟩ := runKey_bulk.mp hbulk
      obtain ⟨cells, hcells, rfl⟩ := hs last hlast
      obtain ⟨hfound, hcreated, hassigned, hcolumns⟩ := runKey_upsert.mp hupsert
      refine ⟨hstorable, hfound, ?_, hassigned, ?_⟩
      · rintro hnone _ ⟨rfl⟩
        exact hcreated hnone
      · rintro last' hlast' c
        cases hlast.symm.trans hlast'
        rw [hcolumns c, (inserted_ok_iff.mp hcells).2 c]
    · rintro ⟨hstorable, hfound, hcreated, hassigned, hcolumns⟩
      obtain ⟨cells, hcells⟩ := storable_iff.mp (hstorable last (List.mem_of_getLast? hlast))
      refine ⟨some cells, runKey_bulk.mpr ⟨hstorable, nofun, fun last' hlast' => ?_⟩,
        runKey_upsert.mpr ⟨hfound, fun hnone => hcreated hnone r rfl, hassigned, fun c => ?_⟩⟩
      · cases hlast.symm.trans hlast'
        exact ⟨cells, hcells, rfl⟩
      · rw [hcolumns last hlast c, (inserted_ok_iff.mp hcells).2 c]

end

/-- A bulk upsert of the rows succeeds, and leaves what upserts of them one
after the other leave. -/
def BulkAgrees (db : Database Cell) (sourceFile : String) (size : ℕ) (t : Table Cell)
    (data : List Row) : Prop :=
  ∃ t₁ t₂, db.bulkUpsertInstruments sourceFile size t data = .ok t₁ ∧
    db.upsertInstruments sourceFile t data = .ok t₂ ∧ ∀ token, t₁.get? token = t₂.get? token

theorem bulkAgrees_iff (db : Database Cell) (sourceFile : String) (size : ℕ) (t : Table Cell)
    (rows : List (Accepted sourceFile)) :
    BulkAgrees db sourceFile (size + 1) t (rows.map (·.row)) ↔
      (∀ batch ∈ batches (size + 1) rows, (batch.map Accepted.token).Nodup) ∧
        ∀ token, Coincides db sourceFile (t.get? token) (rows.filter (·.token = token)) := by
  simp only [BulkAgrees, Database.bulkUpsertInstruments_ok_iff, Database.upsertInstruments_ok_iff,
    ← coincides_iff]
  rw [← Keyed.run_agree_iff]
  constructor
  · rintro ⟨t₁, t₂, ⟨hnodup, h₁⟩, h₂, hsame⟩
    exact ⟨hnodup, t₁, t₂, h₁, h₂, hsame⟩
  · rintro ⟨hnodup, t₁, t₂, h₁, h₂, hsame⟩
    exact ⟨t₁, t₂, ⟨hnodup, h₁⟩, h₂, hsame⟩

def exact : Database Attr where
  encode := fun _ a => some a
  timestamp := fun v => v = .null
  token
    | .int n => some n
    | _ => none
  token_int := by
    rintro (_ | _ | m | _ | _ | _) n h <;> cases h
    rfl

def niftyRow : Row :=
  .ofList [("instrument_token", .int 256265), ("tradingsymbol", .str "NIFTY 50"),
    ("name", .str "NIFTY 50"), ("exchange", .str "NSE")]

/-- A new instrument is stored as active, but in bulk with no value. -/
theorem new_instrument_differs :
    ¬BulkAgrees exact "instruments.csv" 1000 .empty [niftyRow] := by
  rintro ⟨t₁, t₂, h₁, h₂, hsame⟩
  have hbulk : ((exact.bulkUpsertInstruments "instruments.csv" 1000 .empty
      [niftyRow]).toOption.bind (·.get? 256265)).map (· .isActive) = some (.raw .null) := by
    decide +kernel
  have hsingle : ((exact.upsertInstruments "instruments.csv" .empty
      [niftyRow]).toOption.bind (·.get? 256265)).map (· .isActive) = some (.raw (.bool true)) := by
    decide +kernel
  rw [h₁] at hbulk
  rw [h₂] at hsingle
  change (t₁.get? 256265).map _ = _ at hbulk
  rw [hsame] at hbulk
  cases hbulk.symm.trans hsingle

def Tables.cells (t : Tables) : Table Attr := t.instruments.map fun s => s.instrument.attr

/-- Over values that fit, a batch's statement is the one of `Tables`. -/
theorem upsertMany_cells {t t' : Tables} (h : t.upsert now values = .ok t') :
    exact.upsertMany t.cells values = .ok t'.cells := by
  have hinserted : ∀ i : Instrument, exact.inserted i = .ok i.attr :=
    fun i => inserted_ok_iff.mpr ⟨rfl, fun c => rfl⟩
  unfold Tables.upsert at h
  split at h
  · rename_i hnodup
    cases h
    rw [Database.upsertMany, if_pos hnodup]
    simp only [hinserted, Tables.cells, Tables.put, store, Bind.bind, Except.bind, pure, Except.pure]
    generalize t.instruments = d
    clear hnodup
    induction values generalizing d with
    | nil => rfl
    | cons i values ih =>
      rw [List.foldlM_cons, List.foldl_cons, ← ih, Dict.map_set]
      rfl
  · cases h

end AlphaPanda.Instruments
