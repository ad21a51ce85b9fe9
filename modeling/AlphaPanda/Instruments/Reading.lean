import AlphaPanda.Instruments.Acceptance
import AlphaPanda.Lib.CsvText
import Mathlib.Data.List.Infix

/-!
# Reading a file

The entry points of `InstrumentCSVLoader` on the lines of a file, and what the
spelling of its header changes.
-/

namespace AlphaPanda.Instruments

open CsvText

-- ---------------------------------------------------------------------------
-- The loader on the lines of a file
-- ---------------------------------------------------------------------------

/-- A file that can be read, by its lines without their line ends. -/
structure TextFile where
  lines : List String
  unbroken : ∀ line ∈ lines, ∀ c ∈ line.toList, c ≠ '\n' ∧ c ≠ '\r'

def defaultFieldnames : List String := ["instrument_token", "tradingsymbol", "name", "exchange"]

/-- A row of `csv.DictReader`, where a later column of a name wins. -/
def dictRow (fieldnames : List String) (record : List String) : RawRow where
  fields := .ofList (fieldnames.zip (record.map some) ++
    (fieldnames.drop record.length).map fun name => (name, none))
  extra := decide (fieldnames.length < record.length)

/-- `DictReader` passes over records without a field. -/
def dictRows (fieldnames : List String) (records : List (List String)) : List RawRow :=
  (records.filter (· ≠ [])).map (dictRow fieldnames)

namespace TextFile

def dataLines (f : TextFile) : List String :=
  (f.lines.map strip).filter fun line => line ≠ "" ∧ line.toList.head? ≠ some '#'

def hasHeader (f : TextFile) : Prop :=
  "instrument_token".toList <:+: ((f.dataLines.head?.getD "").toLower).toList

instance (f : TextFile) : Decidable f.hasHeader := inferInstanceAs (Decidable (_ <:+: _))

def rows (f : TextFile) : List RawRow :=
  if f.hasHeader then
    match records f.dataLines with
    | [] => []
    | fieldnames :: rest => dictRows fieldnames rest
  else dictRows defaultFieldnames (records f.dataLines)

def loadInstruments (f : TextFile) : List Row :=
  if f.dataLines = [] then []
  else f.rows.foldl (fun instruments row =>
    if !validateRow row then instruments
    else match cleanRow row with
      | some cleanedRow => instruments ++ [cleanedRow]
      | none => instruments) []

def yields : List RawRow → List Row
  | [] => []
  | row :: rows =>
    if validateRow row then
      match cleanRow row with
      | some cleanedRow => cleanedRow :: yields rows
      | none => yields rows
    else yields rows

def loadInstrumentsIterator (f : TextFile) : List Row :=
  if f.dataLines = [] then [] else yields f.rows

def countInstruments (f : TextFile) : ℕ :=
  f.loadInstrumentsIterator.foldl (fun count _ => count + 1) 0

-- ---------------------------------------------------------------------------
-- The entry points agree
-- ---------------------------------------------------------------------------

theorem yields_eq (rows : List RawRow) : yields rows = Instruments.loadInstruments rows := by
  induction rows with
  | nil => rfl
  | cons row rows ih =>
    by_cases h : validateRow row
    · cases hclean : cleanRow row <;>
        simp [yields, Instruments.loadInstruments, h, hclean, ih]
    · simp [yields, Instruments.loadInstruments, h, ih]

theorem rows_of_no_lines {f : TextFile} (h : f.dataLines = []) : f.rows = [] := by
  unfold rows
  rw [h]
  split <;> rfl

theorem loadInstrumentsIterator_eq (f : TextFile) :
    f.loadInstrumentsIterator = Instruments.loadInstruments f.rows := by
  unfold loadInstrumentsIterator
  split
  · rename_i h
    rw [rows_of_no_lines h]
    rfl
  · exact yields_eq f.rows

theorem loadInstruments_eq (f : TextFile) :
    f.loadInstruments = Instruments.loadInstruments f.rows := by
  unfold loadInstruments
  split
  · rename_i h
    rw [rows_of_no_lines h]
    rfl
  · rw [← yields_eq]
    suffices hfold : ∀ (rows : List RawRow) (instruments : List Row),
        rows.foldl (fun instruments row =>
          if !validateRow row then instruments
          else match cleanRow row with
            | some cleanedRow => instruments ++ [cleanedRow]
            | none => instruments) instruments = instruments ++ yields rows from hfold f.rows []
    intro rows
    induction rows with
    | nil => simp [yields]
    | cons row rows ih =>
      intro instruments
      rw [List.foldl_cons, ih]
      by_cases h : validateRow row
      · cases hclean : cleanRow row <;> simp [yields, h, hclean]
      · simp [yields, h]

theorem countInstruments_eq (f : TextFile) :
    f.countInstruments = f.loadInstrumentsIterator.length := by
  suffices h : ∀ (l : List Row) (n : ℕ), l.foldl (fun count _ => count + 1) n = n + l.length from
    (h _ 0).trans (Nat.zero_add _)
  intro l
  induction l with
  | nil => exact fun n => rfl
  | cons row l ih =>
    intro n
    rw [List.foldl_cons, ih, List.length_cons]
    omega

/-- The file as it is loaded into the database. -/
def csvFile (f : TextFile) (name : String) : CsvFile := ⟨name, .ok f.rows⟩

theorem csvFile_data (f : TextFile) (name : String) :
    (f.csvFile name).data = f.loadInstruments := (loadInstruments_eq f).symm

end TextFile

-- ---------------------------------------------------------------------------
-- Headers
-- ---------------------------------------------------------------------------

def normal (name : String) : String := (strip name).toLower

/-- The same file but for the case of the header's names and the blanks around
them. -/
def Respelled (f f' : TextFile) : Prop :=
  f'.hasHeader ∧ ∃ names names' rest, records f.dataLines = names :: rest ∧
    records f'.dataLines = names' :: rest ∧ names'.map normal = names.map normal

/-- With the right spelling of the header, the record is a valid row. -/
def Loadable (names record : List String) : Prop :=
  record.length ≤ names.length ∧ ∀ field ∈ requiredFields, ∃ (i : ℕ) (name s : String),
    names[i]? = some name ∧ record[i]? = some s ∧ normal name = field ∧ strip s ≠ "" ∧
      (field = "instrument_token" → (parseInt s).isSome)

theorem Loadable.congr (h : names'.map normal = names.map normal) (hload : Loadable names' record) :
    Loadable names record := by
  obtain ⟨hlength, hfields⟩ := hload
  refine ⟨?_, fun field hfield => ?_⟩
  · have hnames := congrArg List.length h
    rw [List.length_map, List.length_map] at hnames
    exact hnames ▸ hlength
  · obtain ⟨i, name, s, hname, hs, hnormal, hrest⟩ := hfields field hfield
    have hi : (names.map normal)[i]? = some field := by
      rw [← h, List.getElem?_map, hname, Option.map_some, hnormal]
    rw [List.getElem?_map, Option.map_eq_some_iff] at hi
    obtain ⟨name', hname', hnormal'⟩ := hi
    exact ⟨i, name', s, hname', hs, hnormal', hrest⟩

theorem dictRow_text (h : (dictRow names record).text field = some s) :
    ∃ i : ℕ, names[i]? = some field ∧ record[i]? = some s := by
  obtain ⟨v, hv, rfl⟩ := Option.bind_eq_some_iff.mp h
  rcases List.mem_append.mp (Dict.mem_of_get?_ofList hv) with hmem | hmem
  · obtain ⟨i, hi⟩ := List.mem_iff_getElem?.mp hmem
    obtain ⟨hname, hs⟩ := List.getElem?_zip_eq_some.mp hi
    rw [List.getElem?_map, Option.map_eq_some_iff] at hs
    obtain ⟨s', hs', heq⟩ := hs
    cases heq
    exact ⟨i, hname, hs'⟩
  · obtain ⟨name, -, hname⟩ := List.mem_map.mp hmem
    cases hname

theorem dictRow_text_of_column {i : ℕ} (hname : names[i]? = some field)
    (hs : record[i]? = some s) (honly : ∀ j : ℕ, names[j]? = some field → j = i) :
    (dictRow names record).text field = some s := by
  have hentry : (field, some s) ∈ names.zip (record.map some) := by
    refine List.mem_iff_getElem?.mpr ⟨i, List.getElem?_zip_eq_some.mpr ⟨hname, ?_⟩⟩
    rw [List.getElem?_map, hs, Option.map_some]
  have hget := Dict.get?_ofList (List.mem_append_left
    ((names.drop record.length).map fun name => (name, none)) hentry) ?_
  · rw [RawRow.text, dictRow, hget]
    rfl
  · intro v hv
    rcases List.mem_append.mp hv with hmem | hmem
    · obtain ⟨j, hj⟩ := List.mem_iff_getElem?.mp hmem
      obtain ⟨hname', hv'⟩ := List.getElem?_zip_eq_some.mp hj
      cases honly j hname'
      rw [List.getElem?_map, hs] at hv'
      exact (Option.some.inj hv').symm
    · -- the columns that a short record does not reach
      obtain ⟨name, hdrop, heq⟩ := List.mem_map.mp hmem
      cases heq
      obtain ⟨j, hj⟩ := List.mem_iff_getElem?.mp hdrop
      rw [List.getElem?_drop] at hj
      have hlt := (List.getElem?_eq_some_iff.mp hs).1
      have hat := honly _ hj
      omega

theorem validateRow_iff (raw : RawRow) : validateRow raw = true ↔
    ∀ field ∈ requiredFields, ∃ s, raw.text field = some s ∧ strip s ≠ "" ∧
      (field = "instrument_token" → (parseInt s).isSome) := by
  unfold validateRow
  constructor
  · intro h field hfield
    obtain ⟨hrequired, htoken⟩ := Bool.and_eq_true_iff.mp h
    obtain ⟨s, hs, hblank⟩ := (Option.any_eq_true _ _).mp (List.all_eq_true.mp hrequired field hfield)
    refine ⟨s, hs, of_decide_eq_true hblank, ?_⟩
    rintro rfl
    rw [hs] at htoken
    exact htoken
  · intro h
    rw [Bool.and_eq_true_iff, List.all_eq_true]
    refine ⟨fun field hfield => ?_, ?_⟩
    · obtain ⟨s, hs, hblank, -⟩ := h field hfield
      rw [hs, Option.any_some]
      exact decide_eq_true hblank
    · obtain ⟨s, hs, -, htoken⟩ := h "instrument_token" (by decide)
      rw [hs, Option.any_some]
      exact htoken rfl

theorem loadable_of_valid (hvalid : validateRow (dictRow names record) = true)
    (hextra : (dictRow names record).extra = false) : Loadable names record := by
  refine ⟨Nat.le_of_not_lt (of_decide_eq_false hextra), fun field hfield => ?_⟩
  obtain ⟨s, hs, hrest⟩ := (validateRow_iff _).mp hvalid field hfield
  obtain ⟨i, hname, hrecord⟩ := dictRow_text hs
  exact ⟨i, field, s, hname, hrecord, required_normal field hfield, hrest⟩

theorem loads_nothing (h : ∀ record ∈ rest, ¬Loadable names record) :
    loadInstruments (dictRows names rest) = [] := by
  refine List.filterMap_eq_nil_iff.mpr fun raw hraw => ?_
  obtain ⟨record, hrecord, rfl⟩ := List.mem_map.mp hraw
  split
  · rename_i hvalid
    unfold cleanRow
    split
    · rfl
    · rename_i hextra
      exact absurd (loadable_of_valid hvalid (Bool.not_eq_true _ ▸ hextra))
        (h record (List.mem_filter.mp hrecord).1)
  · rfl

-- ---------------------------------------------------------------------------
-- Respelling
-- ---------------------------------------------------------------------------

/-- Spell a required name exactly in the column chosen for it, and with a blank
before it in others. -/
def respellName (column : String → ℕ) (i : ℕ) (name : String) : String :=
  if normal name ∈ requiredFields then
    if i = column (normal name) then normal name else " " ++ normal name
  else name

def respell (column : String → ℕ) (names : List String) : List String :=
  names.mapIdx (respellName column)

theorem normal_blank : ∀ field ∈ requiredFields, normal (" " ++ field) = field := by decide +kernel

theorem blank_ne : ∀ field ∈ requiredFields, " " ++ field ∉ requiredFields := by decide +kernel

theorem normal_respellName (column : String → ℕ) (i : ℕ) (name : String) :
    normal (respellName column i name) = normal name := by
  unfold respellName
  split
  · rename_i hrequired
    split
    · exact required_normal _ hrequired
    · exact normal_blank _ hrequired
  · rfl

theorem respellName_eq_iff (column : String → ℕ) (i : ℕ) (name : String)
    (hfield : field ∈ requiredFields) :
    respellName column i name = field ↔ i = column field ∧ normal name = field := by
  constructor
  · intro hspell
    have hnormal : normal name = field := by
      rw [← normal_respellName column i name, hspell]
      exact required_normal field hfield
    refine ⟨?_, hnormal⟩
    by_contra hi
    rw [respellName, hnormal, if_pos hfield, if_neg hi] at hspell
    exact blank_ne field hfield (hspell.symm ▸ hfield)
  · rintro ⟨hi, rfl⟩
    rw [respellName, if_pos hfield, if_pos hi]

theorem normal_respell (column : String → ℕ) (names : List String) :
    (respell column names).map normal = names.map normal := by
  refine List.ext_getElem? fun i => ?_
  rw [List.getElem?_map, List.getElem?_map, respell, List.getElem?_mapIdx, Option.map_map]
  exact congrArg (Option.map · names[i]?) (funext (normal_respellName column i))

theorem respell_column {column : String → ℕ} {i : ℕ} (hfield : field ∈ requiredFields) :
    (respell column names)[i]? = some field ↔
      i = column field ∧ ∃ name, names[i]? = some name ∧ normal name = field := by
  rw [respell, List.getElem?_mapIdx, Option.map_eq_some_iff]
  simp only [respellName_eq_iff column i _ hfield]
  constructor
  · rintro ⟨name, hname, hi, hnormal⟩
    exact ⟨hi, name, hname, hnormal⟩
  · rintro ⟨hi, name, hname, hnormal⟩
    exact ⟨name, hname, hi, hnormal⟩

theorem not_loaded_respelled (names : List String) (rest : List (List String)) :
    loadInstruments (dictRows (respell (fun _ => names.length) names) rest) = [] := by
  refine List.filterMap_eq_nil_iff.mpr fun raw hraw => ?_
  obtain ⟨record, -, rfl⟩ := List.mem_map.mp hraw
  rw [if_neg]
  intro hvalid
  obtain ⟨s, hs, -⟩ := (validateRow_iff _).mp hvalid "instrument_token" (by decide)
  obtain ⟨i, hi, -⟩ := dictRow_text hs
  obtain ⟨rfl, name, hname, -⟩ := (respell_column (by decide)).mp hi
  exact absurd (List.getElem?_eq_some_iff.mp hname).1 (lt_irrefl _)

theorem loaded_respelled (hrecord : record ∈ rest) (h : Loadable names record) :
    ∃ column, loadInstruments (dictRows (respell column names) rest) ≠ [] := by
  obtain ⟨hlength, hfields⟩ := h
  choose! column name cell hname hcell hnormal hblank htoken using hfields
  refine ⟨column, fun hnil => ?_⟩
  have hvalid : validateRow (dictRow (respell column names) record) = true := by
    refine (validateRow_iff _).mpr fun field hfield => ?_
    refine ⟨cell field, ?_, hblank field hfield, htoken field hfield⟩
    refine dictRow_text_of_column ?_ (hcell field hfield) fun j hj => ?_
    · exact (respell_column hfield).mpr ⟨rfl, name field, hname field hfield, hnormal field hfield⟩
    · exact ((respell_column hfield).mp hj).1
  have hextra : (dictRow (respell column names) record).extra = false := by
    rw [dictRow, respell, List.length_mapIdx]
    exact decide_eq_false (Nat.not_lt.mpr hlength)
  have hne : record ≠ [] := by
    rintro rfl
    simpa using hcell "instrument_token" (by decide)
  have hmem : dictRow (respell column names) record ∈ dictRows (respell column names) rest :=
    List.mem_map.mpr ⟨record, List.mem_filter.mpr ⟨hrecord, decide_eq_true hne⟩, rfl⟩
  have hnone := List.filterMap_eq_nil_iff.mp hnil _ hmem
  simp [hvalid, cleanRow, hextra] at hnone

-- ---------------------------------------------------------------------------
-- Respelled files
-- ---------------------------------------------------------------------------

def Unbroken (c : Char) : Prop := c ≠ '\n' ∧ c ≠ '\r'

instance (c : Char) : Decidable (Unbroken c) := inferInstanceAs (Decidable (_ ∧ _))

theorem unbroken_of_all {s : String} (h : s.toList.all (fun c => decide (Unbroken c)) = true) :
    ∀ c ∈ s.toList, Unbroken c :=
  fun c hc => of_decide_eq_true (List.all_eq_true.mp h c hc)

theorem mem_strip (h : c ∈ (strip s).toList) : c ∈ s.toList := by
  rw [strip, String.toList_ofList, Decimal.strip, List.mem_reverse] at h
  have hreverse := (List.dropWhile_suffix _).subset h
  exact (List.dropWhile_suffix _).subset (List.mem_reverse.mp hreverse)

structure DataLine (line : String) : Prop where
  stripped : strip line = line
  kept : line ≠ "" ∧ line.toList.head? ≠ some '#'
  unbroken : ∀ c ∈ line.toList, Unbroken c

theorem TextFile.dataLine (f : TextFile) (h : line ∈ f.dataLines) : DataLine line := by
  obtain ⟨hmem, hkept⟩ := List.mem_filter.mp h
  obtain ⟨raw, hraw, rfl⟩ := List.mem_map.mp hmem
  exact ⟨strip_strip raw, of_decide_eq_true hkept, fun c hc => f.unbroken raw hraw c (mem_strip hc)⟩

def ofDataLines (lines : List String) (h : ∀ line ∈ lines, DataLine line) : TextFile where
  lines := lines
  unbroken := fun line hline => (h line hline).unbroken

theorem ofDataLines_dataLines (h : ∀ line ∈ lines, DataLine line) :
    (ofDataLines lines h).dataLines = lines := by
  have hmap : lines.map strip = lines :=
    (List.map_congr_left fun line hline => (h line hline).stripped).trans (List.map_id' lines)
  rw [TextFile.dataLines]
  change (lines.map strip).filter _ = lines
  rw [hmap, List.filter_eq_self]
  exact fun line hline => decide_eq_true (h line hline).kept

theorem required_unbroken : ∀ field ∈ requiredFields, ∀ c ∈ field.toList, Unbroken c := by
  have hall : ∀ field ∈ requiredFields, field.toList.all (fun c => decide (Unbroken c)) = true := by
    decide +kernel
  exact fun field hfield => unbroken_of_all (hall field hfield)

theorem respell_unbroken (column : String → ℕ) (h : ∀ name ∈ names, ∀ c ∈ name.toList, Unbroken c) :
    ∀ name ∈ respell column names, ∀ c ∈ name.toList, Unbroken c := by
  intro name hname
  obtain ⟨i, hi⟩ := List.mem_iff_getElem?.mp hname
  rw [respell, List.getElem?_mapIdx, Option.map_eq_some_iff] at hi
  obtain ⟨name', hname', rfl⟩ := hi
  unfold respellName
  split
  · rename_i hrequired
    split
    · exact required_unbroken _ hrequired
    · intro c hc
      rw [String.toList_append] at hc
      rcases List.mem_append.mp hc with hc | hc
      · cases List.mem_singleton.mp hc
        exact ⟨by decide, by decide⟩
      · exact required_unbroken _ hrequired c hc
  · exact h name' (List.mem_of_getElem? hname')

theorem dataLine_quoteRow (hne : names ≠ [])
    (h : ∀ name ∈ names, ∀ c ∈ name.toList, Unbroken c) : DataLine (quoteRow names) := by
  obtain ⟨rest, hrest⟩ := quoteAll_head hne
  obtain ⟨front, hfront⟩ := quoteAll_last hne
  refine ⟨?_, ⟨?_, ?_⟩, fun c hc => ?_⟩
  · have hspace : Decimal.isSpace '"' = false := by decide
    rw [strip, quoteRow, String.toList_ofList, Decimal.strip]
    congr 1
    have hdrop : (quoteAll names).dropWhile Decimal.isSpace = quoteAll names := by
      rw [hrest, List.dropWhile_cons_of_neg (by rw [hspace]; decide)]
    rw [hdrop, hfront, List.reverse_append]
    simp [hspace]
  · intro hempty
    have hlist := congrArg String.toList hempty
    rw [quoteRow, String.toList_ofList, hrest] at hlist
    cases hlist
  · rw [quoteRow, String.toList_ofList, hrest]
    simp
  · rw [quoteRow, String.toList_ofList] at hc
    rcases mem_quoteAll hc with rfl | rfl | ⟨name, hname, hc⟩
    · exact ⟨by decide, by decide⟩
    · exact ⟨by decide, by decide⟩
    · exact h name hname c hc

theorem header_of_token (hname : name = "instrument_token" ∨ name = " instrument_token")
    (h : name ∈ names) : "instrument_token".toList <:+: ((quoteRow names).toLower).toList := by
  have hquote : "instrument_token".toList <:+: (quote name).map Char.toLower := by
    rcases hname with rfl | rfl <;> decide +kernel
  have hlist : (quoteRow names).toList = quoteAll names := String.toList_ofList
  have hlower : (quoteRow names).toLower.toList = (quoteAll names).map Char.toLower := by
    rw [← hlist]
    exact String.toList_map
  rw [hlower]
  exact hquote.trans ((quote_isInfix h).map _)

theorem exists_respelled {f : TextFile} (hrecords : records f.dataLines = names :: rest)
    (htoken : ∃ name ∈ names, normal name = "instrument_token") (column : String → ℕ) :
    ∃ f', Respelled f f' ∧ records f'.dataLines = respell column names :: rest := by
  obtain ⟨following, hsuffix, hrest⟩ := recordsFrom_cons hrecords
  obtain ⟨name, hname, hnormal⟩ := htoken
  obtain ⟨i, hi⟩ := List.mem_iff_getElem?.mp hname
  have hspelled : ∃ name' ∈ respell column names,
      name' = "instrument_token" ∨ name' = " instrument_token" := by
    have hat : (respell column names)[i]? = some (if i = column "instrument_token" then
        "instrument_token" else " " ++ "instrument_token") := by
      rw [respell, List.getElem?_mapIdx, hi, Option.map_some, respellName, hnormal,
        if_pos (by decide)]
    refine ⟨_, List.mem_of_getElem? hat, ?_⟩
    split
    · exact .inl rfl
    · exact .inr (by decide)
  obtain ⟨name', hmem, hname'⟩ := hspelled
  have hunbroken : ∀ name ∈ names, ∀ c ∈ name.toList, Unbroken c :=
    within_recordsFrom Parser.within_init (fun line hline => (f.dataLine hline).unbroken)
      (show names ∈ records f.dataLines from hrecords ▸ List.mem_cons_self)
  have hne : respell column names ≠ [] := List.ne_nil_of_mem hmem
  have hlines : ∀ line ∈ quoteRow (respell column names) :: following, DataLine line := by
    intro line hline
    rcases List.mem_cons.mp hline with rfl | hline
    · exact dataLine_quoteRow hne (respell_unbroken column hunbroken)
    · exact f.dataLine (hsuffix.subset hline)
  have hdata := ofDataLines_dataLines hlines
  have hrecords' : records (ofDataLines _ hlines).dataLines = respell column names :: rest := by
    rw [hdata, records_quoteRow hne, hrest]
  refine ⟨ofDataLines _ hlines, ⟨?_, names, _, rest, hrecords, hrecords', ?_⟩, hrecords'⟩
  · rw [TextFile.hasHeader, hdata]
    exact header_of_token hname' hmem
  · exact normal_respell column names

-- ---------------------------------------------------------------------------
-- Reading
-- ---------------------------------------------------------------------------

/-- The loader's entry points agree on the file, and the spelling of its header
does not matter. -/
structure ReadsAlike (f : TextFile) : Prop where
  iterator : f.loadInstrumentsIterator = f.loadInstruments
  count : f.countInstruments = f.loadInstruments.length
  spelling : f.hasHeader → ∀ f', Respelled f f' → f'.loadInstruments = f.loadInstruments

theorem loadInstruments_of_header {f : TextFile} (h : f.hasHeader)
    (hrecords : records f.dataLines = names :: rest) :
    f.loadInstruments = loadInstruments (dictRows names rest) := by
  rw [TextFile.loadInstruments_eq, TextFile.rows, if_pos h, hrecords]

/-- A file is read alike, however its header is spelled, exactly if no record
of it could be loaded: names that are not spelled exactly fail the validation. -/
theorem readsAlike_iff (f : TextFile) : ReadsAlike f ↔
    (f.hasHeader → ∀ names rest, records f.dataLines = names :: rest →
      ∀ record ∈ rest, ¬Loadable names record) := by
  constructor
  · rintro ⟨-, -, hspelling⟩ hheader names rest hrecords record hrecord hload
    have hspelling := hspelling hheader
    obtain ⟨i, name, -, hname, -, hnormal, -⟩ := hload.2 "instrument_token" (by decide)
    have htoken : ∃ name ∈ names, normal name = "instrument_token" :=
      ⟨name, List.mem_of_getElem? hname, hnormal⟩
    obtain ⟨column, hloaded⟩ := loaded_respelled hrecord hload
    obtain ⟨f₁, h₁, hrecords₁⟩ := exists_respelled hrecords htoken column
    obtain ⟨f₂, h₂, hrecords₂⟩ := exists_respelled hrecords htoken fun _ => names.length
    refine hloaded ?_
    rw [← loadInstruments_of_header h₁.1 hrecords₁, hspelling f₁ h₁, ← hspelling f₂ h₂,
      loadInstruments_of_header h₂.1 hrecords₂]
    exact not_loaded_respelled names rest
  · intro h
    refine ⟨?_, ?_, ?_⟩
    · rw [f.loadInstrumentsIterator_eq, f.loadInstruments_eq]
    · rw [f.countInstruments_eq, f.loadInstrumentsIterator_eq, f.loadInstruments_eq]
    · rintro hheader f' ⟨hheader', names, names', rest, hrecords, hrecords', hnames⟩
      have hnone := h hheader names rest hrecords
      rw [loadInstruments_of_header hheader hrecords, loads_nothing hnone,
        loadInstruments_of_header hheader' hrecords',
        loads_nothing fun record hrecord hload => hnone record hrecord (hload.congr hnames)]

def oneInstrument (header : String) (h : ∀ c ∈ header.toList, Unbroken c) : TextFile where
  lines := [header, "256265,NIFTY 50,NIFTY 50,NSE"]
  unbroken := by
    have hrow : ∀ c ∈ "256265,NIFTY 50,NIFTY 50,NSE".toList, Unbroken c :=
      unbroken_of_all (by decide +kernel)
    intro line hline
    simp only [List.mem_cons, List.not_mem_nil, or_false] at hline
    rcases hline with rfl | rfl
    exacts [h, hrow]

theorem plain_unbroken : ∀ c ∈ "instrument_token,tradingsymbol,name,exchange".toList, Unbroken c :=
  unbroken_of_all (by decide +kernel)

theorem spaced_unbroken : ∀ c ∈ "instrument_token, tradingsymbol, name, exchange".toList, Unbroken c :=
  unbroken_of_all (by decide +kernel)

/-- With blanks after the commas of its header, the file is loaded without its
instrument. -/
theorem spaced_header_not_loaded : ¬ReadsAlike (oneInstrument _ plain_unbroken) := by
  have hplain : records (oneInstrument _ plain_unbroken).dataLines =
      [["instrument_token", "tradingsymbol", "name", "exchange"],
        ["256265", "NIFTY 50", "NIFTY 50", "NSE"]] := by decide +kernel
  have hspaced : records (oneInstrument _ spaced_unbroken).dataLines =
      [["instrument_token", " tradingsymbol", " name", " exchange"],
        ["256265", "NIFTY 50", "NIFTY 50", "NSE"]] := by decide +kernel
  have hheader : (oneInstrument _ plain_unbroken).hasHeader := by decide +kernel
  have hheader' : (oneInstrument _ spaced_unbroken).hasHeader := by decide +kernel
  rintro ⟨-, -, hspelling⟩
  have hsame := hspelling hheader (oneInstrument _ spaced_unbroken)
    ⟨hheader', _, _, _, hplain, hspaced, by decide +kernel⟩
  rw [loadInstruments_of_header hheader hplain, loadInstruments_of_header hheader' hspaced] at hsame
  have hlength := congrArg List.length hsame
  revert hlength
  decide +kernel

end AlphaPanda.Instruments
