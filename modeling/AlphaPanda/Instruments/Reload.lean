import AlphaPanda.Instruments.Load
import Mathlib.Order.CompletePartialOrder

/-!
# Loading a file again

The loader takes a token for new unless it is subscribed, while the registry
keeps the tokens that are not.
-/

namespace AlphaPanda.Instruments

open Coroutine

-- ---------------------------------------------------------------------------
-- A load of a known file
-- ---------------------------------------------------------------------------

def CsvFile.tokens (file : CsvFile) : List ℤ := tokensOf file.data

def CsvFile.rowsOf (file : CsvFile) (token : ℤ) : List Row :=
  file.data.filter (·.token.toOption = some token)

/-- Each token of the file that is registered is subscribed, and each that is
not has a single row, with a trading symbol and an exchange. -/
def Reloadable (file : CsvFile) (t : Tables) : Prop :=
  ∀ token ∈ file.tokens, (token ∈ t.tokens → t.status token = some true) ∧
    (token ∉ t.tokens → ∃ row, file.rowsOf token = [row] ∧ (row.field "tradingsymbol").isSome ∧
      (row.field "exchange").isSome)

theorem subscribed_subset (t : Tables) : t.subscribed ⊆ t.tokens :=
  (List.filter_sublist.map _).subset

theorem status_eq_true_iff (t : Tables) (token : ℤ) :
    t.status token = some true ↔ token ∈ t.subscribed := by
  simp only [Tables.status, Tables.subscribed, Option.map_eq_some_iff, List.mem_map, List.mem_filter]
  constructor
  · rintro ⟨e, he, hsubscribed⟩
    refine ⟨e, ⟨List.mem_of_find?_eq_some he, hsubscribed⟩, ?_⟩
    simpa using List.find?_some he
  · rintro ⟨e, ⟨hmem, hsubscribed⟩, rfl⟩
    cases hfind : t.registry.find? (·.instrumentToken = e.instrumentToken) with
    | none => simpa using List.find?_eq_none.mp hfind e hmem
    | some e' =>
      have htoken : e'.instrumentToken = e.instrumentToken := by
        simpa using List.find?_some hfind
      have heq := List.inj_on_of_nodup_map t.unique (List.mem_of_find?_eq_some hfind) hmem htoken
      exact ⟨e', rfl, heq ▸ hsubscribed⟩

theorem mem_entriesFor {known : List ℤ} {data : List Row} : e ∈ entriesFor known data ↔
    ∃ row ∈ data, ∃ token, row.token = .ok token ∧ token ∉ known ∧ row.entry token = e := by
  simp only [entriesFor, List.mem_filterMap]
  refine exists_congr fun row => and_congr_right fun _ => ?_
  cases htoken : row.token with
  | error err => simp
  | ok token => by_cases hknown : token ∈ known <;> simp [hknown]

theorem entriesFor_tokens (known : List ℤ) (data : List Row) :
    (entriesFor known data).map (·.instrumentToken) = (tokensOf data).filter (· ∉ known) := by
  rw [entriesFor, tokensOf, List.map_filterMap, List.filter_filterMap]
  congr 1
  funext row
  cases row.token with
  | error err => rfl
  | ok token => by_cases hknown : token ∈ known <;> simp [hknown, Except.toOption, Row.entry, Option.filter]

theorem length_rowsOf (file : CsvFile) (token : ℤ) :
    (file.rowsOf token).length = file.tokens.count token := by
  rw [CsvFile.rowsOf, CsvFile.tokens, tokensOf, List.count_filterMap, List.countP_eq_length_filter]
  congr 2
  funext row
  simp [beq_eq_decide]

theorem mem_rowsOf {file : CsvFile} :
    row ∈ file.rowsOf token ↔ row ∈ file.data ∧ row.token = .ok token := by
  rw [CsvFile.rowsOf, List.mem_filter]
  refine and_congr_right fun _ => ?_
  cases row.token <;> simp [Except.toOption]

theorem isSome_putAll {t : Tables} (now : Timestamp) (vss : List (List Instrument))
    (h : (t.instruments.get? token).isSome) :
    ((t.putAll now vss).instruments.get? token).isSome := by
  unfold Tables.putAll
  induction vss generalizing t with
  | nil => exact h
  | cons values vss ih => exact ih (isSome_store now values h)

theorem inserts_iff (file : CsvFile) (now : Timestamp) (vss : List (List Instrument))
    (hknown : ∀ token ∈ file.tokens, (t.instruments.get? token).isSome) :
    (∃ t', (t.putAll now vss).insertAll (newEntries true file.data t) = .ok t') ↔
      Reloadable file t := by
  rw [insertAll_ok_iff, newEntries, if_pos rfl, entriesFor_tokens]
  constructor
  · rintro ⟨hinsertable, hnodup⟩ token htoken
    obtain ⟨row, hrow, hrowtoken⟩ := mem_tokensOf.mp htoken
    refine ⟨fun hregistered => ?_, fun hnew => ?_⟩
    · by_contra hstatus
      have hnot : token ∉ t.subscribed := fun h => hstatus ((status_eq_true_iff t token).mpr h)
      refine (hinsertable _ (mem_entriesFor.mpr ⟨row, hrow, token, hrowtoken, hnot, rfl⟩)).unique ?_
      rw [putAll_tokens]
      exact hregistered
    · have hnot : token ∉ t.subscribed := fun h => hnew (subscribed_subset t h)
      have hcount := List.nodup_iff_count_le_one.mp hnodup token
      rw [List.count_filter (by simpa using hnot)] at hcount
      have hpos : 0 < file.tokens.count token := List.count_pos_iff.mpr htoken
      have hone : (file.rowsOf token).length = 1 := by
        rw [length_rowsOf]
        exact le_antisymm hcount hpos
      obtain ⟨row', hrows⟩ := List.length_eq_one_iff.mp hone
      obtain ⟨hmem, hrowtoken'⟩ := mem_rowsOf.mp (hrows ▸ List.mem_singleton_self row')
      have h := hinsertable _ (mem_entriesFor.mpr ⟨row', hmem, token, hrowtoken', hnot, rfl⟩)
      exact ⟨row', hrows, h.tradingsymbol, h.exchange⟩
  · intro hreload
    have hnew : ∀ token ∈ file.tokens, token ∉ t.subscribed → token ∉ t.tokens :=
      fun token htoken hnot hregistered =>
        hnot ((status_eq_true_iff t token).mp ((hreload token htoken).1 hregistered))
    refine ⟨fun e he => ?_, List.nodup_iff_count_le_one.mpr fun token => ?_⟩
    · obtain ⟨row, hrow, token, hrowtoken, hnot, rfl⟩ := mem_entriesFor.mp he
      have htoken : token ∈ file.tokens := mem_tokensOf.mpr ⟨row, hrow, hrowtoken⟩
      obtain ⟨row', hrows, hsymbol, hexchange⟩ :=
        (hreload token htoken).2 (hnew token htoken hnot)
      obtain rfl : row = row' :=
        List.mem_singleton.mp (hrows ▸ mem_rowsOf.mpr ⟨hrow, hrowtoken⟩)
      refine ⟨hsymbol, hexchange, ?_, isSome_putAll now vss (hknown token htoken)⟩
      rw [putAll_tokens]
      exact hnew token htoken hnot
    · by_cases hnot : token ∈ t.subscribed
      · rw [List.count_eq_zero_of_not_mem (by simp [hnot])]
        exact Nat.zero_le 1
      · rw [List.count_filter (by simpa using hnot)]
        by_cases htoken : token ∈ file.tokens
        · obtain ⟨row, hrows, -⟩ := (hreload token htoken).2 (hnew token htoken hnot)
          have hlength := length_rowsOf file token
          rw [hrows] at hlength
          exact hlength.symm.le
        · exact (List.count_eq_zero_of_not_mem htoken).trans_le (Nat.zero_le 1)

def Tables.known (t : Tables) : Set ℤ := {token | (t.instruments.get? token).isSome}

theorem upsertBatches_ascends (sourceFile : String) (now : Timestamp) (bs : List (List Row)) (n : ℕ) :
    (upsertBatches sourceFile now n bs).Ascends Tables.known := by
  induction bs generalizing n with
  | nil => exact ascends_pure n
  | cons batch rest ih =>
    unfold upsertBatches
    dsimp only
    split
    · exact ih n
    · refine ascends_bind (statement_ascends fun t t' h => ?_) fun _ => ih _
      unfold Tables.upsert at h
      split at h
      · cases h
        exact fun token => isSome_store now _
      · cases h

theorem insert_known {t t' : Tables} (h : t.insert e = .ok t') : t.known ≤ t'.known := by
  rw [Tables.known, Tables.known, (insert_inserted h).2.instruments]

theorem loadInstrumentsFromCsv_ascends (file : CsvFile) (updateRegistry : Bool) (now : Timestamp) :
    (loadInstrumentsFromCsv file updateRegistry now).Ascends Tables.known := by
  unfold loadInstrumentsFromCsv
  split
  · exact ascends_throw _
  dsimp only
  split
  · exact ascends_pure _
  refine ascends_bind (rollback_ascends _) fun _ => ascends_finallyDo (ascends_rescued ?_
    (rollback_ascends _)) (rollback_ascends _)
  refine ascends_bind (upsertBatches_ascends _ _ _ _) fun _ => ascends_bind
    (requestedUpdate_ascends insert_known _ _) fun _ => ?_
  exact ascends_bind (commit_ascends _) fun _ => ascends_bind (query_ascends _ _) fun _ =>
    ascends_pure _

theorem reporting_ascends {body : Handler Bool} (h : body.Ascends Tables.known) :
    (reporting body).Ascends Tables.known := by
  refine ascends_bind (ascends_tryCatch (ascends_bind (rollback_ascends _) fun _ => ascends_pure _)
    fun _ => ascends_pure _) fun opened => ?_
  split
  · exact ascends_finallyDo (ascends_tryCatch h fun _ => ascends_pure _) (rollback_ascends _)
  · exact ascends_pure _

theorem changeEntry_ascends (token : ℤ) (op : Op) {change : Tables → Tables}
    (h : ∀ t, (change t).instruments = t.instruments) :
    (changeEntry token op change).Ascends Tables.known := by
  refine ascends_rescued (ascends_bind (query_ascends _ _) fun found => ?_) (rollback_ascends _)
  split
  · refine ascends_bind (statement_ascends fun t t' hchange => ?_) fun _ =>
      ascends_bind (commit_ascends _) fun _ => ascends_pure _
    cases hchange
    rw [Tables.known, Tables.known, h]
  · exact ascends_pure _

inductive Operation where
  | load (file : CsvFile) (updateRegistry : Bool) (now : Timestamp)
  | add (token priority : ℤ) (notes : Option String) (addedBy : String)
  | remove (token : ℤ)
  | update (token : ℤ) (isSubscribed : Bool)

def Operation.handler : Operation → Handler Unit
  | .load file updateRegistry now => (fun _ => ()) <$> loadInstrumentsFromCsv file updateRegistry now
  | .add token priority notes addedBy => (fun _ => ()) <$> addToRegistry token priority notes addedBy
  | .remove token => (fun _ => ()) <$> removeFromRegistry token
  | .update token isSubscribed => (fun _ => ()) <$> updateSubscriptionStatus token isSubscribed

/-- The tables after an operation in which nothing fails but constraints. -/
def Operation.apply (t : Tables) (o : Operation) : Tables :=
  (o.handler.exec [] (World.start (.fresh t))).world.st.committed

theorem Operation.handler_ascends (o : Operation) : o.handler.Ascends Tables.known := by
  cases o with
  | load file updateRegistry now =>
    exact ascends_map _ (loadInstrumentsFromCsv_ascends file updateRegistry now)
  | add token priority notes addedBy =>
    refine ascends_map _ (reporting_ascends (ascends_bind (query_ascends _ _) fun instrument => ?_))
    split
    · exact ascends_pure _
    · exact ascends_bind (addEntry_ascends insert_known _) fun _ => ascends_pure _
  | remove token => exact ascends_map _ (reporting_ascends (changeEntry_ascends _ _ fun _ => rfl))
  | update token isSubscribed =>
    exact ascends_map _ (reporting_ascends (changeEntry_ascends _ _ fun _ => rfl))

theorem known_history (ops : List Operation) (t : Tables) :
    t.known ≤ (ops.foldl Operation.apply t).known := by
  induction ops generalizing t with
  | nil => exact le_rfl
  | cons o ops ih =>
    exact ((o.handler_ascends [] (World.start (.fresh t)) le_rfl).1).trans (ih (o.apply t))

-- ---------------------------------------------------------------------------
-- Loading again
-- ---------------------------------------------------------------------------

def load (file : CsvFile) (now : Timestamp) (t : Tables) : Outcome (Session Tables) Op Exc LoadResult :=
  (loadInstrumentsFromCsv file true now).exec [] (World.start (.fresh t))

def after (file : CsvFile) (now : Timestamp) (t : Tables) : Tables :=
  (load file now t).world.st.committed

/-- A load succeeds, leaves one registry row for each token of the file, and
the status of every token that was registered. -/
structure Reloads (file : CsvFile) (now : Timestamp) (t : Tables) : Prop where
  succeeds : ∃ r, (load file now t).result = .ok r
  once : ∀ token ∈ file.tokens, (after file now t).tokens.count token = 1
  kept : ∀ token ∈ t.tokens, (after file now t).status token = t.status token

theorem load_ok_iff {file : CsvFile} (hrows : file.rows = .ok rows)
    (hdata : loadInstruments rows ≠ []) (now : Timestamp) (t : Tables) :
    (∃ r, (load file now t).result = .ok r) ↔
      Loads file.name true now (loadInstruments rows) t (after file now t) := by
  by_cases h : ∃ t', Loads file.name true now (loadInstruments rows) t t'
  · obtain ⟨t', h⟩ := h
    obtain ⟨r, hload⟩ := load_completes hrows hdata h
    obtain ⟨l, hreturns⟩ := hload.returns [] [] (by simp [Coroutine.succeeds])
    have hexec : load file now t = _ := hreturns
    rw [after, hexec]
    exact iff_of_true ⟨r, rfl⟩ h
  · have hbreaks := load_breaks hrows hdata true now t (not_exists.mp h)
    obtain ⟨e, he⟩ := hbreaks [] []
    refine iff_of_false ?_ fun hloads => h ⟨_, hloads⟩
    rintro ⟨r, hr⟩
    cases he.symm.trans hr

theorem Loads.inserted (h : Loads sourceFile updateRegistry now data t t') :
    t'.tokens = t.tokens ++ (newEntries updateRegistry data t).map (·.instrumentToken) ∧
      t.registry <+: t'.registry := by
  have hinserted := insertAll_inserted h.inserts
  have htokens := hinserted.tokens
  have hregistry := hinserted.registry
  rw [putAll_tokens] at htokens
  rw [putAll_registry] at hregistry
  exact ⟨htokens, hregistry⟩

theorem Loads.registers (h : Loads sourceFile true now data t t') (htoken : token ∈ tokensOf data) :
    token ∈ t'.tokens := by
  rw [h.inserted.1, newEntries, if_pos rfl, entriesFor_tokens]
  by_cases hsubscribed : token ∈ t.subscribed
  · exact List.mem_append_left _ (subscribed_subset t hsubscribed)
  · exact List.mem_append_right _ (List.mem_filter.mpr ⟨htoken, by simpa using hsubscribed⟩)

theorem Loads.kept (h : Loads sourceFile updateRegistry now data t t') (htoken : token ∈ t.tokens) :
    t'.status token = t.status token := by
  obtain ⟨rest, hrest⟩ := h.inserted.2
  obtain ⟨e, he, rfl⟩ := List.mem_map.mp htoken
  have hfound : (t.registry.find? (·.instrumentToken = e.instrumentToken)).isSome :=
    List.find?_isSome.mpr ⟨e, he, by simp⟩
  rw [Tables.status, Tables.status, ← hrest, List.find?_append, Option.or_of_isSome hfound]

/-- A file that was loaded once reloads, after any history, exactly where its
tokens are either subscribed or not registered at all, and a token that is not
registered has a single row to insert.

Premise: the file was loaded, from some tables. -/
theorem reload_iff (file : CsvFile) (now₀ now : Timestamp) (t₀ : Tables) (ops : List Operation)
    (h : ∃ r, (load file now₀ t₀).result = .ok r) :
    Reloads file now (ops.foldl Operation.apply (after file now₀ t₀)) ↔
      Reloadable file (ops.foldl Operation.apply (after file now₀ t₀)) := by
  have hhistory := known_history ops (after file now₀ t₀)
  generalize ops.foldl Operation.apply (after file now₀ t₀) = t at hhistory ⊢
  cases hrows : file.rows with
  | error e =>
    obtain ⟨r, hr⟩ := h
    rw [load, loadInstrumentsFromCsv, hrows] at hr
    cases hr
  | ok rows =>
    have hdata : file.data = loadInstruments rows := by rw [CsvFile.data, hrows]
    by_cases hnone : loadInstruments rows = []
    · have hempty : file.tokens = [] := by rw [CsvFile.tokens, hdata, hnone, tokensOf, List.filterMap_nil]
      have hload : load file now t = ⟨.ok (.nothing file.name), World.start (.fresh t), []⟩ := by
        rw [load, loadInstrumentsFromCsv, hrows]
        simp only [hnone, if_true, exec_pure]
      refine iff_of_true ⟨⟨_, by rw [hload]⟩, ?_, ?_⟩ ?_
      · rw [hempty]
        exact List.forall_mem_nil _
      · rw [after, hload]
        exact fun _ _ => rfl
      · rw [Reloadable, hempty]
        exact List.forall_mem_nil _
    · have hfirst := (load_ok_iff hrows hnone now₀ t₀).mp h
      rw [← hdata] at hfirst
      -- The tokens of the file were registered once, so their instruments are still there.
      have hknown : ∀ token ∈ file.tokens, (t.instruments.get? token).isSome := by
        intro token htoken
        obtain ⟨e, he, htok⟩ := List.mem_map.mp (hfirst.registers htoken)
        exact hhistory (htok ▸ (after file now₀ t₀).foreign e he)
      rw [← inserts_iff file now (fileValues file.name file.data) hknown]
      constructor
      · intro hreloads
        have hloads := (load_ok_iff hrows hnone now t).mp hreloads.succeeds
        rw [← hdata] at hloads
        exact ⟨_, hloads.inserts⟩
      · rintro ⟨t', hinserts⟩
        have hloads : ∃ r, (load file now t).result = .ok r := by
          obtain ⟨r, hload⟩ := load_completes hrows hnone (hdata ▸
            ⟨hfirst.distinct, hfirst.numbered, hinserts⟩ : Loads file.name true now _ t t')
          obtain ⟨l, hreturns⟩ := hload.returns [] [] (by simp [Coroutine.succeeds])
          exact ⟨r, congrArg Outcome.result hreturns⟩
        have hafter := (load_ok_iff hrows hnone now t).mp hloads
        rw [← hdata] at hafter
        refine ⟨hloads, fun token htoken => ?_, fun token htoken => hafter.kept htoken⟩
        exact List.count_eq_one_of_mem (after file now t).unique (hafter.registers htoken)

def niftyFile : CsvFile where
  name := "instruments.csv"
  rows := .ok [⟨.ofList [("instrument_token", some "256265"), ("tradingsymbol", some "NIFTY 50"),
    ("name", some "NIFTY 50"), ("exchange", some "NSE")], false⟩]

def loadedAt : Timestamp := ⟨"2026-01-05", "09:00:00"⟩

theorem nifty_loaded : ∃ r, (load niftyFile loadedAt .empty).result = .ok r := by
  have h : (load niftyFile loadedAt .empty).result.toOption.isSome := by decide +kernel
  cases hresult : (load niftyFile loadedAt .empty).result with
  | error e => rw [hresult] at h; cases h
  | ok r => exact ⟨r, rfl⟩

theorem nifty_resubscribed :
    Reloads niftyFile loadedAt ([.update 256265 false, .update 256265 true].foldl Operation.apply
        (after niftyFile loadedAt .empty)) ↔
      Reloadable niftyFile ([.update 256265 false, .update 256265 true].foldl Operation.apply
        (after niftyFile loadedAt .empty)) :=
  reload_iff niftyFile loadedAt loadedAt .empty [.update 256265 false, .update 256265 true]
    nifty_loaded

/-- Unsubscribed in between, its token is taken for new and refused. -/
theorem nifty_unsubscribed : ¬∀ file now₀ now t₀ (ops : List Operation),
    (∃ r, (load file now₀ t₀).result = .ok r) →
    Reloads file now (ops.foldl Operation.apply (after file now₀ t₀)) := by
  intro hclaim
  obtain ⟨r, hr⟩ := (hclaim niftyFile loadedAt loadedAt .empty [.update 256265 false]
    nifty_loaded).succeeds
  have h : (load niftyFile loadedAt ([.update 256265 false].foldl Operation.apply
      (after niftyFile loadedAt .empty))).result.toOption.isSome = false := by
    decide +kernel
  rw [hr] at h
  cases h

end AlphaPanda.Instruments
