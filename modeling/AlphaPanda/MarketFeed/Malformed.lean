import AlphaPanda.MarketFeed.Formatter

/-!
# Malformed ticks

A tick whose optional parts are malformed is formatted without them, unless
one of them raises what is not caught: an OHLC price that is no number, a depth
that is no dictionary, a level with an infinite quantity.
-/

namespace AlphaPanda.MarketFeed.Formatter

-- ---------------------------------------------------------------------------
-- What is well formed
-- ---------------------------------------------------------------------------

def readEntry (entries : List (String × Raw)) (key : String) : Option Decimal :=
  (entries.lookup key).bind Raw.readDecimal

def ohlcFields : List String := ["open", "high", "low", "close"]

/-- A well-formed OHLC: a dictionary with four prices. -/
def ohlcOf : Raw → Option Ohlc
  | .dict entries => do
    return ⟨← readEntry entries "open", ← readEntry entries "high", ← readEntry entries "low",
      ← readEntry entries "close"⟩
  | _ => none

def Ohlc.prices (o : Ohlc) : List Decimal := [o.open', o.high, o.low, o.close]

def Raw.readInt (v : Raw) : Option ℤ := v.toInt.toOption

/-- A well-formed level: a dictionary with a price and two counts. -/
def levelOf : Raw → Option Level
  | .dict entries => do
    return ⟨← readEntry entries "price", ← (entries.lookup "quantity").bind Raw.readInt,
      ← (entries.lookup "orders").bind Raw.readInt⟩
  | _ => none

def levelsOf (side : Raw) : Option (List Level) :=
  side.firstFive.toOption.map (List.filterMap levelOf)

def sideOf (entries : List (String × Raw)) (key : String) : Raw := (entries.lookup key).getD (.list [])

def depthFrom (buy sell : List Level) : Option Depth :=
  if buy = [] ∧ sell = [] then none else some ⟨buy, sell⟩

section
variable (rejects : Decimal → Bool)

/-- The OHLC of a tick, where some numbers count as malformed prices. -/
def cleanOhlc (v : Raw) : Option Ohlc := (ohlcOf v).filter fun o => !o.prices.any rejects

def cleanLevels (levels : List Level) : List Level := levels.filter fun l => !rejects l.price

/-- The depth of a tick, without its malformed levels. -/
def cleanDepth : Raw → Option Depth
  | .dict entries => do
    let buy ← levelsOf (sideOf entries "buy")
    let sell ← levelsOf (sideOf entries "sell")
    depthFrom (cleanLevels rejects buy) (cleanLevels rejects sell)
  | _ => none

/-- The first price that is not read is missing, and all of them count. -/
structure OhlcContained (v : Raw) : Prop where
  missing : ∀ entries, v = .dict entries → ∀ key,
    ohlcFields.find? (fun key => (readEntry entries key).isNone) = some key → entries.lookup key = none
  counts : ∀ o, ohlcOf v = some o → ∀ x ∈ o.prices, rejects x = false

end

def infinite : Raw → Bool
  | .float (.num .negInf) | .float (.num .posInf) => true
  | _ => false

/-- A level that is complete, with an infinite count where the counting ends. -/
def overflows : Raw → Bool
  | .dict entries =>
    isValidDepthOrder (.dict entries) && (readEntry entries "price").isSome &&
      ((entries.lookup "quantity").any infinite ||
        ((entries.lookup "quantity").bind Raw.readInt).isSome && (entries.lookup "orders").any infinite)
  | _ => false

def Finite (side : Raw) : Prop :=
  ∀ orders, side.firstFive = .ok orders → ∀ order ∈ orders, overflows order = false

/-- It is falsy or a dictionary, no level that is processed overflows, and all
the prices count if the depth is kept. -/
structure DepthContained (rejects : Decimal → Bool) (v : Raw) : Prop where
  dictionary : v.truthy = true → ∃ entries, v = .dict entries
  buy : ∀ entries, v = .dict entries → Finite (sideOf entries "buy")
  sell : ∀ entries, v = .dict entries → (levelsOf (sideOf entries "buy")).isSome →
    Finite (sideOf entries "sell")
  counts : ∀ entries buy sell, v = .dict entries → levelsOf (sideOf entries "buy") = some buy →
    levelsOf (sideOf entries "sell") = some sell → ∀ l ∈ buy ++ sell, rejects l.price = false

-- ---------------------------------------------------------------------------
-- OHLC
-- ---------------------------------------------------------------------------

section
variable {entries : List (String × Raw)}

theorem item_of_some (h : entries.lookup key = some v) : (Raw.dict entries).item key = .ok v := by
  simp only [Raw.item, h]

theorem item_of_none (h : entries.lookup key = none) :
    (Raw.dict entries).item key = .error ⟨"KeyError", s!"'{key}'", .builtin⟩ := by
  simp only [Raw.item, h]

theorem price_of_read (h : readEntry entries key = some x) : price (.dict entries) key = .ok x := by
  obtain ⟨v, hlookup, hv⟩ := Option.bind_eq_some_iff.mp h
  rw [price, item_of_some hlookup]
  change v.toDecimal = _
  rw [Raw.toDecimal, hv]

theorem price_of_unread (h : readEntry entries key = none) :
    price (.dict entries) key = .error (if entries.lookup key = none then
      ⟨"KeyError", s!"'{key}'", .builtin⟩ else Raw.conversionSyntax) := by
  cases hlookup : entries.lookup key with
  | none =>
    rw [price, item_of_none hlookup]
    rfl
  | some v =>
    have hv : v.readDecimal = none := by
      simpa [readEntry, hlookup] using h
    rw [price, item_of_some hlookup]
    change v.toDecimal = _
    rw [Raw.toDecimal, hv]
    rfl

end

theorem formatOhlc_dict (entries : List (String × Raw)) : formatOhlc (.dict entries) =
    match ohlcFields.find? (fun key => (readEntry entries key).isNone) with
    | none => .ok (ohlcOf (.dict entries))
    | some key => if entries.lookup key = none then .ok none else .error Raw.conversionSyntax := by
  have hprices : catching ["KeyError", "ValueError", "TypeError"] none (do
        return some ⟨← price (.dict entries) "open", ← price (.dict entries) "high",
          ← price (.dict entries) "low", ← price (.dict entries) "close"⟩) =
      match ohlcFields.find? (fun key => (readEntry entries key).isNone) with
      | none => .ok (ohlcOf (.dict entries))
      | some key => if entries.lookup key = none then .ok none else .error Raw.conversionSyntax := by
    have hunread : ∀ (f : Decimal → Except Exc (Option Ohlc)) key, readEntry entries key = none →
        catching ["KeyError", "ValueError", "TypeError"] none (price (.dict entries) key >>= f) =
          if entries.lookup key = none then .ok none else .error Raw.conversionSyntax := by
      intro f key h
      rw [price_of_unread h]
      split <;> rfl
    unfold ohlcFields ohlcOf
    cases hopen : readEntry entries "open" with
    | none => simpa [hopen] using hunread _ "open" hopen
    | some o =>
      rw [price_of_read hopen]
      cases hhigh : readEntry entries "high" with
      | none => simpa [hopen, hhigh, Bind.bind, Except.bind] using hunread _ "high" hhigh
      | some h =>
        rw [price_of_read hhigh]
        cases hlow : readEntry entries "low" with
        | none => simpa [hopen, hhigh, hlow, Bind.bind, Except.bind] using hunread _ "low" hlow
        | some l =>
          rw [price_of_read hlow]
          cases hclose : readEntry entries "close" with
          | none => simpa [hopen, hhigh, hlow, hclose, Bind.bind, Except.bind] using hunread _ "close" hclose
          | some c =>
            rw [price_of_read hclose]
            simp [hopen, hhigh, hlow, hclose, Bind.bind, Except.bind, catching, pure, Except.pure]
  unfold formatOhlc
  split
  · rename_i hempty
    cases entries with
    | nil => rfl
    | cons e rest => simp [Raw.truthy] at hempty
  · exact hprices

theorem formatOhlc_other (h : ∀ entries, ohlc ≠ .dict entries) : formatOhlc ohlc = .ok none := by
  unfold formatOhlc
  split
  · rfl
  · cases ohlc with
    | dict entries => exact absurd rfl (h entries)
    | _ => rfl

theorem ohlcOf_of_unread (h : ohlcFields.find? (fun key => (readEntry entries key).isNone) = some key) :
    ohlcOf (.dict entries) = none := by
  have hmem := List.mem_of_find?_eq_some h
  have hnone := List.find?_some h
  simp only [Option.isNone_iff_eq_none] at hnone
  simp only [ohlcFields, List.mem_cons, List.not_mem_nil, or_false] at hmem
  rcases hmem with rfl | rfl | rfl | rfl <;> simp [ohlcOf, hnone]

theorem cleanOhlc_eq_iff (rejects : Decimal → Bool) (v : Raw) :
    ohlcOf v = cleanOhlc rejects v ↔ ∀ o, ohlcOf v = some o → ∀ x ∈ o.prices, rejects x = false := by
  unfold cleanOhlc
  cases ohlcOf v with
  | none => simp
  | some o =>
    rw [eq_comm, Option.filter_eq_some_iff]
    simp

theorem formatOhlc_iff (rejects : Decimal → Bool) (v : Raw) :
    formatOhlc v = .ok (cleanOhlc rejects v) ↔ OhlcContained rejects v := by
  by_cases hdict : ∃ entries, v = .dict entries
  · obtain ⟨entries, rfl⟩ := hdict
    rw [formatOhlc_dict]
    cases hfind : ohlcFields.find? (fun key => (readEntry entries key).isNone) with
    | none =>
      dsimp only
      rw [Except.ok.injEq, cleanOhlc_eq_iff]
      refine ⟨fun hcounts => ⟨?_, hcounts⟩, OhlcContained.counts⟩
      rintro _ ⟨⟩ key hkey
      rw [hfind] at hkey
      cases hkey
    | some key =>
      have hnone := ohlcOf_of_unread hfind
      have hclean : cleanOhlc rejects (.dict entries) = none := by rw [cleanOhlc, hnone, Option.filter_none]
      rw [hclean]
      dsimp only
      constructor
      · intro h
        split at h
        · rename_i hmissing
          refine ⟨?_, fun o ho => ?_⟩
          · rintro _ ⟨⟩ key' hkey'
            rw [hfind] at hkey'
            cases hkey'
            exact hmissing
          · rw [hnone] at ho
            cases ho
        · cases h
      · intro h
        rw [if_pos (h.missing entries rfl key hfind)]
  · have hother : ∀ entries, v ≠ .dict entries := fun entries h => hdict ⟨entries, h⟩
    have hnone : ohlcOf v = none := by
      cases v with
      | dict entries => exact absurd rfl (hother entries)
      | _ => rfl
    rw [formatOhlc_other hother, cleanOhlc, hnone]
    refine iff_of_true rfl ⟨fun entries h => absurd h (hother entries), fun o ho => ?_⟩
    rw [hnone] at ho
    cases ho

-- ---------------------------------------------------------------------------
-- Levels
-- ---------------------------------------------------------------------------

theorem toInt_cases (v : Raw) :
    (infinite v = false ∧ ∃ n, v.toInt = .ok n ∧ v.readInt = some n) ∨
      (infinite v = false ∧ v.readInt = none ∧
        ∃ e, v.toInt = .error e ∧ e.name ∈ ["ValueError", "TypeError", "InvalidOperation"]) ∨
      (infinite v = true ∧ ∃ e, v.toInt = .error e ∧ e.name = "OverflowError") := by
  cases v with
  | bool b => exact .inl ⟨rfl, _, rfl, rfl⟩
  | int n => exact .inl ⟨rfl, n, rfl, rfl⟩
  | float x =>
    rcases x with (_ | q | _) | _
    · exact .inr (.inr ⟨rfl, _, rfl, rfl⟩)
    · exact .inl ⟨rfl, _, rfl, rfl⟩
    · exact .inr (.inr ⟨rfl, _, rfl, rfl⟩)
    · exact .inr (.inl ⟨rfl, rfl, _, rfl, by simp⟩)
  | str s =>
    cases hs : Instruments.parseInt s with
    | none =>
      have herror : (Raw.str s).toInt =
          .error ⟨"ValueError", s!"invalid literal for int() with base 10: '{s}'", .builtin⟩ := by
        simp only [Raw.toInt, hs]
      exact .inr (.inl ⟨rfl, by rw [Raw.readInt, herror]; rfl, _, herror, by simp⟩)
    | some n =>
      have hok : (Raw.str s).toInt = .ok n := by simp only [Raw.toInt, hs]
      exact .inl ⟨rfl, n, hok, by rw [Raw.readInt, hok]; rfl⟩
  | _ => exact .inr (.inl ⟨rfl, rfl, _, rfl, by simp [Raw.typeError]⟩)

theorem isValid_lookup (h : isValidDepthOrder (.dict entries) = true) (key : String)
    (hkey : key ∈ ["price", "quantity", "orders"]) :
    ∃ v, entries.lookup key = some v ∧ v ≠ .null := by
  have hfield := List.all_eq_true.mp h key hkey
  split at hfield
  · cases hfield
  · cases hfield
  · rename_i v hnull hlookup
    exact ⟨v, hlookup, hnull⟩

theorem levelOf_of_invalid (h : isValidDepthOrder order = false) : levelOf order = none := by
  cases order with
  | dict entries =>
    obtain ⟨key, hkey, hfield⟩ := List.all_eq_false.mp h
    have hnone : (entries.lookup key).bind Raw.readDecimal = none ∧
        (entries.lookup key).bind Raw.readInt = none := by
      split at hfield
      · rename_i hlookup
        simp [hlookup]
      · rename_i hlookup
        rw [hlookup]
        exact ⟨rfl, rfl⟩
      · exact absurd rfl hfield
    simp only [List.mem_cons, List.not_mem_nil, or_false] at hkey
    rcases hkey with rfl | rfl | rfl
    · simp [levelOf, readEntry, hnone.1]
    · simp [levelOf, hnone.2]
    · simp [levelOf, hnone.2]
  | _ => rfl

theorem formatLevel_cases (hvalid : isValidDepthOrder (.dict entries) = true) :
    (overflows (.dict entries) = false ∧ ∃ level, formatLevel (.dict entries) = .ok level ∧
        levelOf (.dict entries) = some level) ∨
      (overflows (.dict entries) = false ∧ levelOf (.dict entries) = none ∧
        ∃ e, formatLevel (.dict entries) = .error e ∧
          e.name ∈ ["ValueError", "TypeError", "InvalidOperation"]) ∨
      (overflows (.dict entries) = true ∧
        ∃ e, formatLevel (.dict entries) = .error e ∧ e.name = "OverflowError") := by
  obtain ⟨p, hp, -⟩ := isValid_lookup hvalid "price" (by simp)
  obtain ⟨q, hq, -⟩ := isValid_lookup hvalid "quantity" (by simp)
  obtain ⟨o, ho, -⟩ := isValid_lookup hvalid "orders" (by simp)
  have hformat : formatLevel (.dict entries) = do
      return ⟨← price (.dict entries) "price", ← q.toInt, ← o.toInt⟩ := by
    rw [formatLevel, item_of_some hq, item_of_some ho]
    rfl
  rw [hformat]
  cases hprice : readEntry entries "price" with
  | none =>
    refine .inr (.inl ⟨by simp [overflows, hprice], by simp [levelOf, hprice], ?_⟩)
    rw [price_of_unread hprice, hp]
    exact ⟨_, rfl, by simp [Raw.conversionSyntax]⟩
  | some x =>
    rw [price_of_read hprice]
    have hover : overflows (.dict entries) = (infinite q || q.readInt.isSome && infinite o) := by
      simp [overflows, hvalid, hprice, hq, ho]
    rw [hover]
    rcases toInt_cases q with ⟨hfinite, quantity, hquantity, hread⟩ | ⟨hfinite, hread, e, herror, hcaught⟩ |
      ⟨hinfinite, e, herror, hname⟩
    · rw [hquantity, hfinite, hread]
      rcases toInt_cases o with ⟨hfinite', orders, horders, hread'⟩ |
        ⟨hfinite', hread', e, herror, hcaught⟩ |
        ⟨hinfinite', e, herror, hname⟩
      · exact .inl ⟨by simp [hfinite'], ⟨x, quantity, orders⟩, by rw [horders]; rfl,
          by simp [levelOf, hprice, hq, ho, hread, hread']⟩
      · exact .inr (.inl ⟨by simp [hfinite'], by simp [levelOf, hprice, hq, ho, hread, hread'], e,
          by rw [herror]; rfl, hcaught⟩)
      · exact .inr (.inr ⟨by simp [hinfinite'], e, by rw [herror]; rfl, hname⟩)
    · exact .inr (.inl ⟨by simp [hfinite, hread], by simp [levelOf, hprice, hq, hread], e,
        by rw [herror]; rfl, hcaught⟩)
    · exact .inr (.inr ⟨by simp [hinfinite], e, by rw [herror]; rfl, hname⟩)

theorem overflows_of_invalid (h : isValidDepthOrder order = false) : overflows order = false := by
  cases order with
  | dict entries => simp [overflows, h]
  | _ => rfl

theorem isValid_dict (h : isValidDepthOrder order = true) : ∃ entries, order = .dict entries := by
  cases order with
  | dict entries => exact ⟨entries, rfl⟩
  | _ => cases h

theorem formatSide_finite (h : ∀ order ∈ orders, overflows order = false) :
    formatSide orders = .ok (orders.filterMap levelOf) := by
  induction orders with
  | nil => rfl
  | cons order rest ih =>
    have hrest := ih fun o ho => h o (List.mem_cons_of_mem _ ho)
    have horder := h order List.mem_cons_self
    rw [formatSide, List.filterMap_cons]
    cases hvalid : isValidDepthOrder order with
    | false => rw [levelOf_of_invalid hvalid, if_neg (by simp), hrest]
    | true =>
      obtain ⟨entries, rfl⟩ := isValid_dict hvalid
      rw [if_pos rfl]
      rcases formatLevel_cases hvalid with ⟨-, level, hformat, hlevel⟩ | ⟨-, hlevel, e, hformat, hcaught⟩ |
        ⟨hover, -⟩
      · rw [hformat, hlevel, hrest]
        rfl
      · rw [hformat, hlevel]
        dsimp only
        rw [if_pos hcaught, hrest]
      · rw [horder] at hover
        cases hover

theorem formatSide_overflows (h : ¬∀ order ∈ orders, overflows order = false) :
    ∃ e, formatSide orders = .error e ∧ e.name = "OverflowError" := by
  induction orders with
  | nil => exact absurd (List.forall_mem_nil _) h
  | cons order rest ih =>
    rw [formatSide]
    by_cases horder : overflows order = true
    · have hvalid : isValidDepthOrder order = true := by
        by_contra hinvalid
        rw [overflows_of_invalid (Bool.not_eq_true _ ▸ hinvalid)] at horder
        cases horder
      obtain ⟨entries, rfl⟩ := isValid_dict hvalid
      rw [if_pos hvalid]
      rcases formatLevel_cases hvalid with ⟨hfinite, -⟩ | ⟨hfinite, -⟩ | ⟨-, e, hformat, hname⟩
      · rw [horder] at hfinite
        cases hfinite
      · rw [horder] at hfinite
        cases hfinite
      · rw [hformat]
        dsimp only
        rw [if_neg (by rw [hname]; decide)]
        exact ⟨e, rfl, hname⟩
    · have hrest : ¬∀ o ∈ rest, overflows o = false := by
        intro hall
        exact h (List.forall_mem_cons.mpr ⟨Bool.not_eq_true _ ▸ horder, hall⟩)
      obtain ⟨e, herror, hname⟩ := ih hrest
      rw [herror]
      refine ⟨e, ?_, hname⟩
      cases hvalid : isValidDepthOrder order with
      | false => rfl
      | true =>
        obtain ⟨entries, rfl⟩ := isValid_dict hvalid
        rcases formatLevel_cases hvalid with ⟨-, level, hformat, -⟩ | ⟨-, -, e', hformat, hcaught⟩ |
          ⟨hover, -⟩
        · rw [hformat]
          rfl
        · rw [hformat]
          exact if_pos hcaught
        · exact absurd hover horder

-- ---------------------------------------------------------------------------
-- Market depth
-- ---------------------------------------------------------------------------

theorem firstFive_caught {v : Raw} (h : v.firstFive = .error e) :
    e.name ∈ ["KeyError", "ValueError", "TypeError"] := by
  cases v with
  | list items => cases h
  | str s => cases h
  | _ =>
    cases h
    simp [Raw.typeError]

theorem depthFrom_clean_iff (rejects : Decimal → Bool) (buy sell : List Level) :
    depthFrom buy sell = depthFrom (cleanLevels rejects buy) (cleanLevels rejects sell) ↔
      ∀ l ∈ buy ++ sell, rejects l.price = false := by
  have hself : ∀ levels, cleanLevels rejects levels = levels ↔ ∀ l ∈ levels, rejects l.price = false := by
    intro levels
    simp [cleanLevels, List.filter_eq_self]
  rw [List.forall_mem_append, ← hself, ← hself]
  constructor
  · intro h
    by_cases hempty : buy = [] ∧ sell = []
    · rw [hempty.1, hempty.2]
      exact ⟨rfl, rfl⟩
    · rw [depthFrom, if_neg hempty, depthFrom] at h
      split at h
      · cases h
      · simpa [eq_comm] using h
  · rintro ⟨hbuy, hsell⟩
    rw [hbuy, hsell]

theorem formatMarketDepth_dict (entries : List (String × Raw)) : formatMarketDepth (.dict entries) =
    catching ["KeyError", "ValueError", "TypeError"] none do
      let buy ← (sideOf entries "buy").firstFive >>= formatSide
      let sell ← (sideOf entries "sell").firstFive >>= formatSide
      return depthFrom buy sell := by
  have hassoc : ∀ {α β γ : Type} (x : Except Exc α) (f : α → Except Exc β) (g : β → Except Exc γ),
      (x >>= f >>= g) = x >>= fun a => f a >>= g := by
    intro α β γ x f g
    cases x <;> rfl
  simp only [hassoc]
  cases entries with
  | nil => rfl
  | cons e rest => rfl

theorem side_cases (side : Raw) :
    (Finite side ∧ levelsOf side = none ∧ ∃ e, side.firstFive >>= formatSide = .error e ∧
        e.name ∈ ["KeyError", "ValueError", "TypeError"]) ∨
      (Finite side ∧ ∃ levels, levelsOf side = some levels ∧
        side.firstFive >>= formatSide = .ok levels) ∨
      ¬Finite side ∧ ∃ e, side.firstFive >>= formatSide = .error e ∧ e.name = "OverflowError" := by
  cases hfive : side.firstFive with
  | error e =>
    refine .inl ⟨fun orders h => ?_, ?_, e, rfl, firstFive_caught hfive⟩
    · cases hfive.symm.trans h
    · rw [levelsOf, hfive]
      rfl
  | ok orders =>
    have hfinite : Finite side ↔ ∀ order ∈ orders, overflows order = false := by
      simp [Finite, hfive]
    by_cases hall : ∀ order ∈ orders, overflows order = false
    · refine .inr (.inl ⟨hfinite.mpr hall, orders.filterMap levelOf, ?_, formatSide_finite hall⟩)
      rw [levelsOf, hfive]
      rfl
    · exact .inr (.inr ⟨fun h => hall (hfinite.mp h), formatSide_overflows hall⟩)

theorem formatMarketDepth_dict_iff (rejects : Decimal → Bool) (entries : List (String × Raw)) :
    formatMarketDepth (.dict entries) = .ok (cleanDepth rejects (.dict entries)) ↔
      Finite (sideOf entries "buy") ∧
        ∀ buy, levelsOf (sideOf entries "buy") = some buy → Finite (sideOf entries "sell") ∧
          ∀ sell, levelsOf (sideOf entries "sell") = some sell →
            ∀ l ∈ buy ++ sell, rejects l.price = false := by
  rw [formatMarketDepth_dict, cleanDepth]
  have hoverflow : ∀ {e : Exc} {x : Option Depth}, e.name = "OverflowError" →
      catching ["KeyError", "ValueError", "TypeError"] none (.error e) ≠ .ok x := by
    intro e x hname h
    rw [catching, if_neg (by rw [hname]; decide)] at h
    cases h
  rcases side_cases (sideOf entries "buy") with ⟨hbuy, hnone, e, herror, hcaught⟩ |
    ⟨hbuy, buy, hlevels, hok⟩ | ⟨hbuy, e, herror, hname⟩
  · rw [herror, hnone]
    exact iff_of_true (if_pos hcaught) ⟨hbuy, nofun⟩
  · rw [hok, hlevels, and_iff_right hbuy]
    simp only [Option.some.injEq, forall_eq']
    rcases side_cases (sideOf entries "sell") with ⟨hsell, hnone, e, herror, hcaught⟩ |
      ⟨hsell, sell, hlevels', hok'⟩ | ⟨hsell, e, herror, hname⟩
    · rw [herror, hnone]
      exact iff_of_true (if_pos hcaught) ⟨hsell, nofun⟩
    · rw [hok', hlevels', and_iff_right hsell]
      simp only [Option.some.injEq, forall_eq']
      change Except.ok (depthFrom _ _) = Except.ok (depthFrom _ _) ↔ _
      rw [Except.ok.injEq, depthFrom_clean_iff]
    · rw [herror]
      exact iff_of_false (hoverflow hname) fun h => hsell h.1
  · rw [herror]
    exact iff_of_false (hoverflow hname) fun h => hbuy h.1

theorem formatMarketDepth_other {v : Raw} (h : ∀ entries, v ≠ .dict entries) :
    formatMarketDepth v = .ok none ↔ v.truthy = false := by
  unfold formatMarketDepth
  cases htruthy : v.truthy with
  | false => simp
  | true =>
    have hget : v.getList "buy" =
        .error ⟨"AttributeError", s!"'{v.typeName}' object has no attribute 'get'", .builtin⟩ := by
      cases v with
      | dict entries => exact absurd rfl (h entries)
      | _ => rfl
    rw [hget]
    simp [Bind.bind, Except.bind, catching]

theorem formatMarketDepth_iff (rejects : Decimal → Bool) (v : Raw) :
    formatMarketDepth v = .ok (cleanDepth rejects v) ↔ DepthContained rejects v := by
  cases v with
  | dict entries =>
    rw [formatMarketDepth_dict_iff]
    constructor
    · rintro ⟨hbuy, hsell⟩
      refine ⟨fun _ => ⟨entries, rfl⟩, ?_, ?_, ?_⟩
      · rintro _ ⟨⟩
        exact hbuy
      · rintro _ ⟨⟩ hsome
        obtain ⟨buy, hlevels⟩ := Option.isSome_iff_exists.mp hsome
        exact (hsell buy hlevels).1
      · rintro _ buy sell ⟨⟩ hlevels
        exact (hsell buy hlevels).2 sell
    · intro h
      exact ⟨h.buy entries rfl, fun buy hlevels => ⟨h.sell entries rfl (by simp [hlevels]),
        fun sell => h.counts entries buy sell rfl hlevels⟩⟩
  | _ =>
    refine (formatMarketDepth_other (by simp)).trans ⟨fun hfalsy => ?_, fun h => ?_⟩
    · exact ⟨fun htruthy => absurd htruthy (by rw [hfalsy]; simp), by simp, by simp, by simp⟩
    · by_contra htruthy
      obtain ⟨entries, hdict⟩ := h.dictionary (Bool.not_eq_false _ ▸ htruthy)
      cases hdict

-- ---------------------------------------------------------------------------
-- Ticks
-- ---------------------------------------------------------------------------

def core (rawTick : RawTick) : RawTick := rawTick.filter fun e => e.1 ∉ ["ohlc", "depth"]

theorem lookup_core (rawTick : RawTick) (key : String) (h : key ∉ ["ohlc", "depth"]) :
    (core rawTick).lookup key = rawTick.lookup key := by
  induction rawTick with
  | nil => rfl
  | cons e rest ih =>
    obtain ⟨name, v⟩ := e
    have ih : (List.filter (fun e => e.1 ∉ ["ohlc", "depth"]) rest).lookup key = rest.lookup key := ih
    rw [core, List.filter_cons]
    split
    · rw [List.lookup_cons, List.lookup_cons, ih]
    · rename_i hskipped
      have hne : (key == name) = false := by
        rw [beq_eq_false_iff_ne]
        rintro rfl
        exact hskipped (by simpa using h)
      rw [ih, List.lookup_cons, hne]

section
variable (rawTick : RawTick) (key : String) (h : key ∉ ["ohlc", "depth"])
include h

theorem item_core : (Raw.dict (core rawTick)).item key = (Raw.dict rawTick).item key := by
  simp only [Raw.item, lookup_core rawTick key h]

theorem price_core : price (.dict (core rawTick)) key = price (.dict rawTick) key := by
  rw [price, item_core rawTick key h, ← price]

theorem optional_core (f : Raw → Except Exc α) : optional (core rawTick) key f = optional rawTick key f := by
  simp only [optional, lookup_core rawTick key h]

theorem get_core : get (core rawTick) key = get rawTick key := by
  rw [get, lookup_core rawTick key h, ← get]

end

theorem formatTimestamp_core (env : Environment) (rawTick : RawTick) :
    formatTimestamp env (core rawTick) = formatTimestamp env rawTick := by
  unfold formatTimestamp
  rw [get_core rawTick _ (by decide), get_core rawTick _ (by decide)]

theorem formatTick_of_core (h : formatTick env (core rawTick) = .ok tick) :
    formatTick env rawTick = do
      let ohlc ← formatOhlc (get rawTick "ohlc")
      let depth ← formatMarketDepth (get rawTick "depth")
      return { tick with ohlc := ohlc, depth := depth } := by
  unfold formatTick at h ⊢
  rw [item_core rawTick _ (by decide), price_core rawTick _ (by decide), formatTimestamp_core] at h
  simp only [optional_core rawTick "volume_traded" (by decide),
    optional_core rawTick "last_traded_quantity" (by decide),
    optional_core rawTick "average_traded_price" (by decide),
    optional_core rawTick "total_buy_quantity" (by decide),
    optional_core rawTick "total_sell_quantity" (by decide),
    optional_core rawTick "change" (by decide), optional_core rawTick "oi" (by decide),
    optional_core rawTick "oi_day_high" (by decide),
    optional_core rawTick "oi_day_low" (by decide),
    lookup_core rawTick "last_trade_time" (by decide),
    lookup_core rawTick "exchange_timestamp" (by decide),
    lookup_core rawTick "mode" (by decide), lookup_core rawTick "tradable" (by decide),
    bind_ok, pure_ok] at h
  obtain ⟨item, hitem, token, htoken, price, hprice, volume, hvolume, lastQuantity, hlast, average, haverage,
    buyQuantity, hbuy, sellQuantity, hsell, change, hchange, ohlc, -, oi, hoi, oiHigh, hoiHigh, oiLow,
    hoiLow, depth, -, rfl⟩ := h
  have hok : ∀ {α β : Type} (a : α) (f : α → Except Exc β), (Except.ok a >>= f) = f a := fun _ _ => rfl
  simp only [hitem, htoken, hprice, hvolume, hlast, haverage, hbuy, hsell, hchange, hoi, hoiHigh, hoiLow,
    hok]

/-- A tick is formatted without its malformed parts exactly if what they raise
is caught, whichever readable numbers count as malformed. -/
theorem formatTick_iff (rejects : Decimal → Bool) (h : formatTick env (core rawTick) = .ok tick) :
    formatTick env rawTick = .ok { tick with
        ohlc := cleanOhlc rejects (get rawTick "ohlc")
        depth := cleanDepth rejects (get rawTick "depth") } ↔
      OhlcContained rejects (get rawTick "ohlc") ∧ DepthContained rejects (get rawTick "depth") := by
  rw [formatTick_of_core h, ← formatOhlc_iff, ← formatMarketDepth_iff]
  cases formatOhlc (get rawTick "ohlc") with
  | error e => simp [Bind.bind, Except.bind]
  | ok ohlc =>
    cases formatMarketDepth (get rawTick "depth") with
    | error e => simp [Bind.bind, Except.bind]
    | ok depth =>
      change Except.ok _ = Except.ok _ ↔ _
      simp

-- ---------------------------------------------------------------------------
-- Two ticks
-- ---------------------------------------------------------------------------

def stillClock : Environment where
  now := ⟨0, some 0⟩
  fromIsoFormat _ := none
  strptime _ := none
  text _ := ""

def tickWith (opening : Raw) (quantity : Raw) : RawTick :=
  [("instrument_token", .int 1), ("last_price", .float (.ofRat 10)), ("ohlc", .dict [("open", opening)]),
    ("depth", .dict [("buy",
      .list [.dict [("price", .int 10), ("quantity", quantity), ("orders", .int 1)]])])]

def plainTick : FormattedTick where
  instrumentToken := 1
  lastPrice := .ofRat 10
  timestamp := ⟨0, some 0⟩
  volumeTraded := none
  lastTradedQuantity := none
  averageTradedPrice := none
  totalBuyQuantity := none
  totalSellQuantity := none
  change := none
  ohlc := none
  oi := none
  oiDayHigh := none
  oiDayLow := none
  lastTradeTime := none
  exchangeTimestamp := none
  depth := none
  mode := none
  tradable := none

theorem formatTick_core_tickWith (opening quantity : Raw) :
    formatTick stillClock (core (tickWith opening quantity)) = .ok plainTick := rfl

theorem malformed_absent : formatTick stillClock (tickWith (.int 10) (.str "many")) = .ok { plainTick with
    ohlc := cleanOhlc (fun _ => false) (get (tickWith (.int 10) (.str "many")) "ohlc")
    depth := cleanDepth (fun _ => false) (get (tickWith (.int 10) (.str "many")) "depth") } := by
  refine (formatTick_iff (fun _ => false) (formatTick_core_tickWith _ _)).mpr ⟨⟨?_, fun _ _ _ _ => rfl⟩, ?_⟩
  · rintro _ ⟨⟩ key hkey
    cases (show ohlcFields.find? (fun key => (readEntry [("open", .int 10)] key).isNone) = some "high" from
      rfl).symm.trans hkey
    rfl
  · refine ⟨fun _ => ⟨_, rfl⟩, ?_, ?_, fun _ _ _ _ _ _ _ _ => rfl⟩
    · rintro _ ⟨⟩ orders ⟨⟩ order horder
      obtain rfl := List.mem_singleton.mp horder
      decide +kernel
    · rintro _ ⟨⟩ - orders ⟨⟩ order horder
      cases horder

/-- An OHLC price that is no number fails the whole tick. -/
theorem bad_ohlc_raises : ¬∀ (env : Environment) (rawTick : RawTick) (tick : FormattedTick),
    formatTick env (core rawTick) = .ok tick →
      formatTick env rawTick = .ok { tick with
        ohlc := cleanOhlc (fun _ => false) (get rawTick "ohlc")
        depth := cleanDepth (fun _ => false) (get rawTick "depth") } := by
  intro h
  have hok := h stillClock (tickWith (.str "n/a") (.int 1)) plainTick (formatTick_core_tickWith _ _)
  have herror : formatTick stillClock (tickWith (.str "n/a") (.int 1)) = .error Raw.conversionSyntax := by
    decide +kernel
  rw [herror] at hok
  cases hok

end AlphaPanda.MarketFeed.Formatter
