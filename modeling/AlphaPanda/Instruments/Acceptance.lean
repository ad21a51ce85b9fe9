import AlphaPanda.Instruments.Repository
import Mathlib.Data.List.DropRight

/-!
# Accepting loaded rows

The loader's cleaning makes an empty cell `None`, which the parsing of a row
does not expect everywhere. What a loaded row needs to be accepted.
-/

namespace AlphaPanda.Instruments

-- ---------------------------------------------------------------------------
-- Cleaned rows
-- ---------------------------------------------------------------------------

theorem dropWhile_reverse_dropWhile (p : α → Bool) {xs : List α} (h : xs.dropWhile p = xs) :
    (xs.reverse.dropWhile p).reverse.dropWhile p = (xs.reverse.dropWhile p).reverse := by
  cases xs with
  | nil => rfl
  | cons x xs =>
    have hx : ¬p x := by
      intro hx
      rw [List.dropWhile_cons_of_pos hx] at h
      have hlength := congrArg List.length h
      have hle := (List.dropWhile_suffix p (l := xs)).length_le
      rw [List.length_cons] at hlength
      omega
    rw [List.reverse_cons, List.dropWhile_append]
    split
    · rw [List.dropWhile_cons_of_neg hx]
      exact List.dropWhile_cons_of_neg hx
    · rw [List.reverse_append]
      exact List.dropWhile_cons_of_neg hx

theorem decimal_strip_strip (cs : List Char) : Decimal.strip (Decimal.strip cs) = Decimal.strip cs := by
  unfold Decimal.strip
  have h := dropWhile_reverse_dropWhile Decimal.isSpace
    (List.dropWhile_idempotent Decimal.isSpace cs)
  rw [h, List.reverse_reverse, List.dropWhile_idempotent]

theorem strip_strip (s : String) : strip (strip s) = strip s := by
  rw [strip, strip, String.toList_ofList, decimal_strip_strip]

/-- A text of a cleaned row has no blanks around it, and is no token. -/
structure Clean (row : Row) : Prop where
  stripped : ∀ field s, row.get? field = some (.str s) → strip s = s
  token : ∀ s, row.get? "instrument_token" = some (.str s) → parseInt s = none
  cases : ∀ field v, row.get? field = some v → v = .null ∨ (∃ s, v = .str s) ∨
    field = "instrument_token" ∧ ∃ n, v = .int n

theorem cleanValue_cases (key : String) (value : Option String) :
    cleanValue key value = .null ∨
      (∃ s, cleanValue key value = .str s ∧ strip s = s ∧
        ((strip key).toLower = "instrument_token" → parseInt s = none)) ∨
      (strip key).toLower = "instrument_token" ∧ ∃ n, cleanValue key value = .int n := by
  unfold cleanValue
  dsimp only
  split
  · exact .inl rfl
  · split
    · rename_i htoken
      cases hparse : parseInt (strip (value.getD "")) with
      | none => exact .inr (.inl ⟨_, rfl, strip_strip _, fun _ => hparse⟩)
      | some n => exact .inr (.inr ⟨htoken.1, n, rfl⟩)
    · rename_i htoken
      refine .inr (.inl ⟨_, rfl, strip_strip _, fun hkey => ?_⟩)
      have hempty : strip (value.getD "") = "" := by
        by_contra hne
        exact htoken ⟨hkey, hne⟩
      rw [hempty]
      rfl

theorem clean_of_loaded {rows : List RawRow} (h : row ∈ loadInstruments rows) : Clean row := by
  obtain ⟨raw, -, hraw⟩ := List.mem_filterMap.mp h
  have hvalues : ∀ field v, row.get? field = some v →
      ∃ key value, field = (strip key).toLower ∧ v = cleanValue key value := by
    intro field v hv
    split at hraw
    · unfold cleanRow at hraw
      split at hraw
      · cases hraw
      · cases hraw
        obtain ⟨e, -, he⟩ := List.mem_map.mp (Dict.mem_of_get?_ofList hv)
        cases he
        exact ⟨_, _, rfl, rfl⟩
    · cases hraw
  refine ⟨fun field s hs => ?_, fun s hs => ?_, fun field v hv => ?_⟩
  · obtain ⟨key, value, -, hvalue⟩ := hvalues field _ hs
    rcases cleanValue_cases key value with hnull | ⟨s', hs', hstrip, -⟩ | ⟨-, n, hn⟩
    · cases hvalue.trans hnull
    · cases hvalue.trans hs'
      exact hstrip
    · cases hvalue.trans hn
  · obtain ⟨key, value, hkey, hvalue⟩ := hvalues _ _ hs
    rcases cleanValue_cases key value with hnull | ⟨s', hs', -, hparse⟩ | ⟨-, n, hn⟩
    · cases hvalue.trans hnull
    · cases hvalue.trans hs'
      exact hparse hkey.symm
    · cases hvalue.trans hn
  · obtain ⟨key, value, rfl, rfl⟩ := hvalues field v hv
    rcases cleanValue_cases key value with hnull | ⟨s, hs, -⟩ | ⟨hkey, n, hn⟩
    · exact .inl hnull
    · exact .inr (.inl ⟨s, hs⟩)
    · exact .inr (.inr ⟨hkey, n, hn⟩)

-- ---------------------------------------------------------------------------
-- Acceptance
-- ---------------------------------------------------------------------------

/-- What a cleaned row needs: no required field and no optional text is `None`,
and a price that is there is a number. -/
structure Acceptable (row : Row) : Prop where
  token : ∃ n, row.get? "instrument_token" = some (.int n)
  texts : ∀ field ∈ ["tradingsymbol", "name", "exchange"], ∃ s, row.get? field = some (.str s)
  optional : ∀ field ∈ ["segment", "instrument_type"], row.get? field ≠ some .null
  numbers : ∀ field ∈ ["last_price", "tick_size", "strike"], ∀ v, row.get? field = some v →
    v.truthy = true → v.toDecimal.isSome

def Agrees (sourceFile : String) (row : Row) : Prop :=
  ∃ i, Instrument.fromCsvRow row sourceFile = .ok i ∧
    row.get? "instrument_token" = some (.int i.instrumentToken) ∧
    row.get? "tradingsymbol" = some (.str i.tradingsymbol) ∧
    row.get? "name" = some (.str i.name) ∧ row.get? "exchange" = some (.str i.exchange)

section
variable {row : Row}

theorem token_ok_iff (h : Clean row) :
    row.token = .ok n ↔ row.get? "instrument_token" = some (.int n) := by
  unfold Row.token
  cases hv : row.get? "instrument_token" with
  | none => simp [toInt]
  | some v =>
    rcases h.cases _ v hv with rfl | ⟨s, rfl⟩ | ⟨-, m, rfl⟩
    · simp [toInt]
    · simp [toInt, h.token s hv]
    · simp [toInt]

theorem text_ok_iff (h : Clean row) (hfield : field ≠ "instrument_token") :
    row.text field = .ok s ↔ row.get? field = some (.str s) := by
  unfold Row.text
  cases hv : row.get? field with
  | none => simp
  | some v =>
    rcases h.cases _ v hv with rfl | ⟨t, rfl⟩ | ⟨htoken, -⟩
    · simp [stripValue]
    · simp [stripValue, h.stripped field t hv]
    · exact absurd htoken hfield

theorem optionalText_ok_iff (h : Clean row) (hfield : field ≠ "instrument_token") :
    (∃ t, row.optionalText field = .ok t) ↔ row.get? field ≠ some .null := by
  unfold Row.optionalText
  cases hv : row.get? field with
  | none => simp [stripValue, Bind.bind, Except.bind, pure, Except.pure]
  | some v =>
    rcases h.cases _ v hv with rfl | ⟨t, rfl⟩ | ⟨htoken, -⟩
    · simp [stripValue, Bind.bind, Except.bind]
    · simp [stripValue, Bind.bind, Except.bind, pure, Except.pure]
    · exact absurd htoken hfield

theorem safeText_eq (h : Clean row) (hfield : field ≠ "instrument_token") :
    row.safeText field = .ok ((row.get? field).bind fun v =>
      if v.truthy then some v.text else none) := by
  unfold Row.safeText
  cases hv : row.get? field with
  | none => rfl
  | some v =>
    rcases h.cases _ v hv with rfl | ⟨t, rfl⟩ | ⟨htoken, -⟩
    · rfl
    · by_cases ht : t = ""
      · subst ht
        rfl
      · simp [Value.truthy, Value.text, stripValue, h.stripped field t hv, ht, Bind.bind,
          Except.bind, pure, Except.pure]
    · exact absurd htoken hfield

theorem safeDecimal_ok_iff (h : Clean row) (hfield : field ≠ "instrument_token") :
    (∃ d, row.safeDecimal field = .ok d) ↔
      ∀ v, row.get? field = some v → v.truthy = true → v.toDecimal.isSome := by
  simp only [Row.safeDecimal, safeText_eq h hfield, Bind.bind, Except.bind, pure, Except.pure]
  cases hv : row.get? field with
  | none => simp
  | some v =>
    by_cases htruthy : v.truthy
    · simp only [Option.bind_some, htruthy, if_true, Option.some.injEq, forall_eq', true_imp_iff,
        Value.toDecimal]
      cases Decimal.ofText v.text <;> simp [throw, throwThe, MonadExceptOf.throw]
    · simp [htruthy]

theorem accepted_iff (h : Clean row) (sourceFile : String) :
    (∃ i, Instrument.fromCsvRow row sourceFile = .ok i) ↔ Acceptable row := by
  have hsafe : ∀ field ≠ "instrument_token", ∃ s, row.safeText field = .ok s :=
    fun field hfield => ⟨_, safeText_eq h hfield⟩
  simp only [Instrument.fromCsvRow, Row.date, Row.safeInt, bind_ok, pure_ok]
  constructor
  · rintro ⟨-, -, -, n, htoken, -, -, symbol, hsymbol, name, hname, exchange, hexchange, segment,
      hsegment, type, htype, last, hlast, tick, htick, -, -, strike, hstrike, -⟩
    refine ⟨⟨n, (token_ok_iff h).mp htoken⟩, fun field hfield => ?_, fun field hfield => ?_,
      fun field hfield => ?_⟩
    all_goals simp only [List.mem_cons, List.not_mem_nil, or_false] at hfield
    · rcases hfield with rfl | rfl | rfl
      exacts [⟨_, (text_ok_iff h (by decide)).mp hsymbol⟩,
        ⟨_, (text_ok_iff h (by decide)).mp hname⟩, ⟨_, (text_ok_iff h (by decide)).mp hexchange⟩]
    · rcases hfield with rfl | rfl
      exacts [(optionalText_ok_iff h (by decide)).mp ⟨_, hsegment⟩,
        (optionalText_ok_iff h (by decide)).mp ⟨_, htype⟩]
    · rcases hfield with rfl | rfl | rfl
      exacts [(safeDecimal_ok_iff h (by decide)).mp ⟨_, hlast⟩,
        (safeDecimal_ok_iff h (by decide)).mp ⟨_, htick⟩,
        (safeDecimal_ok_iff h (by decide)).mp ⟨_, hstrike⟩]
  · rintro ⟨⟨n, htoken⟩, htexts, hoptional, hnumbers⟩
    obtain ⟨expiry, hexpiry⟩ := hsafe "expiry" (by decide)
    obtain ⟨exchangeToken, hexchangeToken⟩ := hsafe "exchange_token" (by decide)
    obtain ⟨lotSize, hlotSize⟩ := hsafe "lot_size" (by decide)
    obtain ⟨symbol, hsymbol⟩ := htexts "tradingsymbol" (by simp)
    obtain ⟨name, hname⟩ := htexts "name" (by simp)
    obtain ⟨exchange, hexchange⟩ := htexts "exchange" (by simp)
    obtain ⟨segment, hsegment⟩ :=
      (optionalText_ok_iff h (by decide)).mpr (hoptional "segment" (by simp))
    obtain ⟨type, htype⟩ :=
      (optionalText_ok_iff h (by decide)).mpr (hoptional "instrument_type" (by simp))
    obtain ⟨last, hlast⟩ := (safeDecimal_ok_iff h (by decide)).mpr (hnumbers "last_price" (by simp))
    obtain ⟨tick, htick⟩ := (safeDecimal_ok_iff h (by decide)).mpr (hnumbers "tick_size" (by simp))
    obtain ⟨strike, hstrike⟩ := (safeDecimal_ok_iff h (by decide)).mpr (hnumbers "strike" (by simp))
    exact ⟨_, _, ⟨expiry, hexpiry, rfl⟩, n, (token_ok_iff h).mpr htoken, _,
      ⟨exchangeToken, hexchangeToken, rfl⟩, symbol, (text_ok_iff h (by decide)).mpr hsymbol, name,
      (text_ok_iff h (by decide)).mpr hname, exchange,
      (text_ok_iff h (by decide)).mpr hexchange, segment, hsegment, type, htype, last, hlast, tick,
      htick, _, ⟨lotSize, hlotSize, rfl⟩, strike, hstrike, rfl⟩

theorem agrees_iff (h : Clean row) (sourceFile : String) :
    Agrees sourceFile row ↔ Acceptable row := by
  rw [← accepted_iff h sourceFile]
  constructor
  · rintro ⟨i, hi, -⟩
    exact ⟨i, hi⟩
  · rintro ⟨i, hi⟩
    refine ⟨i, hi, ?_⟩
    simp only [Instrument.fromCsvRow, bind_ok, pure_ok] at hi
    obtain ⟨-, -, n, htoken, -, -, symbol, hsymbol, name, hname, exchange, hexchange, -, -, -, -,
      -, -, -, -, -, -, -, -, rfl⟩ := hi
    exact ⟨(token_ok_iff h).mp htoken, (text_ok_iff h (by decide)).mp hsymbol,
      (text_ok_iff h (by decide)).mp hname, (text_ok_iff h (by decide)).mp hexchange⟩

end

-- ---------------------------------------------------------------------------
-- The cells of a file
-- ---------------------------------------------------------------------------

/-- What stands in the last column of a name, up to case and blanks. -/
def RawRow.cell (row : RawRow) (field : String) : Option String :=
  ((row.fields.entries.filter fun e => (strip e.1).toLower = field).getLast?).map
    fun e => strip (e.2.getD "")

/-- What a row of a file needs: a token in the token's last column, and nothing
blank or unreadable in the last columns of the others. -/
structure RawRow.Acceptable (row : RawRow) : Prop where
  token : ∃ s, row.cell "instrument_token" = some s ∧ (parseInt s).isSome
  texts : ∀ field ∈ ["tradingsymbol", "name", "exchange"],
    ∃ s, row.cell field = some s ∧ s ≠ ""
  optional : ∀ field ∈ ["segment", "instrument_type"], row.cell field ≠ some ""
  numbers : ∀ field ∈ ["last_price", "tick_size", "strike"], ∀ s, row.cell field = some s →
    s ≠ "" → (Decimal.ofText s).isSome

theorem cleanValue_token (h : (strip key).toLower = "instrument_token") (value : Option String) :
    (∃ n, cleanValue key value = .int n) ↔ (parseInt (strip (value.getD ""))).isSome := by
  have hempty : (parseInt "").isSome = false := by decide +kernel
  unfold cleanValue
  dsimp only
  split
  · rename_i hblank
    rw [hblank.1, hempty]
    simp
  · split
    · cases parseInt (strip (value.getD "")) <;> simp
    · rename_i htoken
      have hblank : strip (value.getD "") = "" := by
        by_contra hne
        exact htoken ⟨h, hne⟩
      rw [hblank, hempty]
      simp

theorem cleanValue_of_ne (h : (strip key).toLower ≠ "instrument_token") (value : Option String) :
    cleanValue key value = if strip (value.getD "") = "" ∧ key ∉ requiredFields then .null
      else .str (strip (value.getD "")) := by
  unfold cleanValue
  dsimp only
  split
  · rfl
  · rw [if_neg (fun htoken => h htoken.1)]

section
variable {raw : RawRow} {row : Row}

theorem cell_cases (h : cleanRow raw = some row) (field : String) :
    (row.get? field = none ∧ raw.cell field = none) ∨
      ∃ key value, raw.fields.get? key = some value ∧ (strip key).toLower = field ∧
        row.get? field = some (cleanValue key value) ∧
        raw.cell field = some (strip (value.getD "")) := by
  unfold cleanRow at h
  split at h
  · cases h
  · cases h
    rw [Dict.get?_ofList_eq, RawRow.cell, List.filter_map, List.getLast?_map, Option.map_map]
    simp only [Function.comp_def]
    cases hlast : (raw.fields.entries.filter fun e => (strip e.1).toLower = field).getLast? with
    | none => exact .inl ⟨rfl, rfl⟩
    | some e =>
      obtain ⟨hmem, hname⟩ := List.mem_filter.mp (List.mem_of_getLast? hlast)
      exact .inr ⟨e.1, e.2, Dict.mem_entries.mp hmem, of_decide_eq_true hname, rfl, rfl⟩

theorem required_normal : ∀ key ∈ requiredFields, (strip key).toLower = key := by decide +kernel

theorem not_blank_of_valid (h : validateRow raw = true) (hkey : key ∈ requiredFields)
    (hvalue : raw.fields.get? key = some value) : strip (value.getD "") ≠ "" := by
  obtain ⟨hrequired, -⟩ := Bool.and_eq_true_iff.mp h
  have hfield := List.all_eq_true.mp hrequired key hkey
  rw [RawRow.text, hvalue] at hfield
  cases value with
  | none => simp at hfield
  | some s => simpa using hfield

theorem token_cell_iff (h : cleanRow raw = some row) :
    (∃ n, row.get? "instrument_token" = some (.int n)) ↔
      ∃ s, raw.cell "instrument_token" = some s ∧ (parseInt s).isSome := by
  rcases cell_cases h "instrument_token" with ⟨hrow, hcell⟩ | ⟨key, value, -, hkey, hrow, hcell⟩
  · simp [hrow, hcell]
  · simpa [hrow, hcell] using cleanValue_token hkey value

theorem text_cell_iff (h : cleanRow raw = some row) (hvalid : validateRow raw = true)
    (hfield : field ≠ "instrument_token") :
    (∃ s, row.get? field = some (.str s)) ↔ ∃ s, raw.cell field = some s ∧ s ≠ "" := by
  rcases cell_cases h field with ⟨hrow, hcell⟩ | ⟨key, value, hvalue, rfl, hrow, hcell⟩
  · simp [hrow, hcell]
  · rw [cleanValue_of_ne hfield] at hrow
    by_cases hkey : key ∈ requiredFields
    · simp [hrow, hcell, hkey, not_blank_of_valid hvalid hkey hvalue]
    · by_cases hblank : strip (value.getD "") = "" <;> simp [hrow, hcell, hkey, hblank]

theorem optional_cell_iff (h : cleanRow raw = some row) (hfield : field ∉ requiredFields) :
    row.get? field ≠ some .null ↔ raw.cell field ≠ some "" := by
  rcases cell_cases h field with ⟨hrow, hcell⟩ | ⟨key, value, -, rfl, hrow, hcell⟩
  · simp [hrow, hcell]
  · have htoken : (strip key).toLower ≠ "instrument_token" := by
      intro heq
      rw [heq] at hfield
      exact hfield (by decide)
    have hkey : key ∉ requiredFields := fun hkey => hfield (by rwa [required_normal key hkey])
    rw [cleanValue_of_ne htoken] at hrow
    by_cases hblank : strip (value.getD "") = "" <;> simp [hrow, hcell, hkey, hblank]

theorem number_cell_iff (h : cleanRow raw = some row) (hfield : field ∉ requiredFields) :
    (∀ v, row.get? field = some v → v.truthy = true → v.toDecimal.isSome) ↔
      ∀ s, raw.cell field = some s → s ≠ "" → (Decimal.ofText s).isSome := by
  rcases cell_cases h field with ⟨hrow, hcell⟩ | ⟨key, value, -, rfl, hrow, hcell⟩
  · simp [hrow, hcell]
  · have htoken : (strip key).toLower ≠ "instrument_token" := by
      intro heq
      rw [heq] at hfield
      exact hfield (by decide)
    have hkey : key ∉ requiredFields := fun hkey => hfield (by rwa [required_normal key hkey])
    rw [cleanValue_of_ne htoken] at hrow
    by_cases hblank : strip (value.getD "") = "" <;>
      simp [hrow, hcell, hkey, hblank, Value.truthy, Value.toDecimal, Value.text]

theorem acceptable_iff (h : cleanRow raw = some row) (hvalid : validateRow raw = true) :
    Acceptable row ↔ raw.Acceptable := by
  constructor
  · rintro ⟨htoken, htexts, hoptional, hnumbers⟩
    refine ⟨(token_cell_iff h).mp htoken, fun field hfield => ?_, fun field hfield => ?_,
      fun field hfield => ?_⟩
    · refine (text_cell_iff h hvalid ?_).mp (htexts field hfield)
      rintro rfl
      revert hfield
      decide
    · exact (optional_cell_iff h (by revert field; decide)).mp (hoptional field hfield)
    · exact (number_cell_iff h (by revert field; decide)).mp (hnumbers field hfield)
  · rintro ⟨htoken, htexts, hoptional, hnumbers⟩
    refine ⟨(token_cell_iff h).mpr htoken, fun field hfield => ?_, fun field hfield => ?_,
      fun field hfield => ?_⟩
    · refine (text_cell_iff h hvalid ?_).mpr (htexts field hfield)
      rintro rfl
      revert hfield
      decide
    · exact (optional_cell_iff h (by revert field; decide)).mpr (hoptional field hfield)
    · exact (number_cell_iff h (by revert field; decide)).mpr (hnumbers field hfield)

end

-- ---------------------------------------------------------------------------
-- Files
-- ---------------------------------------------------------------------------

theorem flatten_range (size : ℕ) (l : List α) (n : ℕ) :
    ((List.range n).map fun i => (l.drop (i * size)).take size).flatten = l.take (n * size) := by
  induction n with
  | zero => simp
  | succ n ih =>
    rw [List.range_succ, List.map_append, List.flatten_append, ih, Nat.succ_mul, List.take_add]
    simp

theorem batches_flatten (size : ℕ) (l : List α) : (batches (size + 1) l).flatten = l := by
  rw [batches, flatten_range]
  refine List.take_of_length_le ?_
  have h := Nat.div_add_mod (l.length + size) (size + 1)
  have hlt := Nat.mod_lt (l.length + size) (by omega : 0 < size + 1)
  have hcomm := Nat.mul_comm (size + 1) ((l.length + size) / (size + 1))
  change l.length ≤ (l.length + size) / (size + 1) * (size + 1)
  omega

def SkipsNone (sourceFile : String) (batch : List Row) : Prop :=
  (batchValues sourceFile batch).length = batch.length

theorem skipsNone_iff (sourceFile : String) (batch : List Row) :
    SkipsNone sourceFile batch ↔
      ∀ row ∈ batch, ∃ i, Instrument.fromCsvRow row sourceFile = .ok i := by
  have hsome : ∀ x : Except Exc Instrument, x.toOption.isSome ↔ ∃ i, x = .ok i := by
    rintro (e | i) <;> simp [Except.toOption]
  simp only [SkipsNone, batchValues, List.length_filterMap_eq_countP, List.countP_eq_length, hsome]

/-- Every row of a file that is loaded is accepted as itself, and none is
skipped when they are stored in batches, exactly if the valid rows of the file
are acceptable. -/
theorem loaded_accepted_iff (rows : List RawRow) (sourceFile : String) (size : ℕ) :
    ((∀ row ∈ loadInstruments rows, Agrees sourceFile row) ∧
        ∀ batch ∈ batches (size + 1) (loadInstruments rows), SkipsNone sourceFile batch) ↔
      ∀ raw ∈ rows, validateRow raw = true → raw.extra = false → raw.Acceptable := by
  have hagrees : (∀ row ∈ loadInstruments rows, Agrees sourceFile row) ↔
      ∀ raw ∈ rows, validateRow raw = true → raw.extra = false → raw.Acceptable := by
    constructor
    · intro h raw hraw hvalid hextra
      obtain ⟨row, hrow⟩ : ∃ row, cleanRow raw = some row := by simp [cleanRow, hextra]
      have hmem : row ∈ loadInstruments rows :=
        List.mem_filterMap.mpr ⟨raw, hraw, by rw [if_pos hvalid, hrow]⟩
      exact (acceptable_iff hrow hvalid).mp ((agrees_iff (clean_of_loaded hmem) _).mp (h row hmem))
    · intro h row hmem
      obtain ⟨raw, hraw, hrow⟩ := List.mem_filterMap.mp hmem
      obtain ⟨hvalid, hclean⟩ := Option.ite_none_right_eq_some.mp hrow
      have hextra : raw.extra = false := by
        by_contra hextra
        simp [cleanRow, hextra] at hclean
      exact (agrees_iff (clean_of_loaded hmem) _).mpr
        ((acceptable_iff hclean hvalid).mpr (h raw hraw hvalid hextra))
  rw [hagrees]
  refine and_iff_left_of_imp fun h batch hbatch => ?_
  rw [skipsNone_iff]
  intro row hrow
  have hmem : row ∈ loadInstruments rows := by
    rw [← batches_flatten size (loadInstruments rows)]
    exact List.mem_flatten.mpr ⟨batch, hbatch, hrow⟩
  obtain ⟨i, hi, -⟩ := hagrees.mpr h row hmem
  exact ⟨i, hi⟩

def rawRow (cells : List (String × String)) : RawRow where
  fields := .ofList (cells.map fun e => (e.1, some e.2))

/-- With an empty segment, a row that is loaded is not stored. -/
theorem empty_segment_skipped :
    ¬((∀ row ∈ loadInstruments [rawRow [("instrument_token", "256265"),
          ("tradingsymbol", "NIFTY 50"), ("name", "NIFTY 50"), ("exchange", "NSE"),
          ("segment", "")]], Agrees "instruments.csv" row) ∧
        ∀ batch ∈ batches 1000 (loadInstruments [rawRow [("instrument_token", "256265"),
          ("tradingsymbol", "NIFTY 50"), ("name", "NIFTY 50"), ("exchange", "NSE"),
          ("segment", "")]]), SkipsNone "instruments.csv" batch) := by
  rintro ⟨hagrees, -⟩
  obtain ⟨row, hrow, hsegment⟩ : ∃ row ∈ loadInstruments [rawRow [("instrument_token", "256265"),
      ("tradingsymbol", "NIFTY 50"), ("name", "NIFTY 50"), ("exchange", "NSE"), ("segment", "")]],
      row.get? "segment" = some .null := by decide +kernel
  have hacceptable := (agrees_iff (clean_of_loaded hrow) _).mp (hagrees row hrow)
  exact hacceptable.optional "segment" (by simp) hsegment

end AlphaPanda.Instruments
