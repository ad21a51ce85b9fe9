import AlphaPanda.Risk.Runs

/-!
# The names of keys

A counter is written under one name, found again by a scan, taken out of its
key and looked up under another name.
-/

namespace AlphaPanda.Risk

-- ---------------------------------------------------------------------------
-- Splitting a key
-- ---------------------------------------------------------------------------

theorem afterFirst_append {sep before : List Char}
    (h : ∀ l ∈ before.tails, l ≠ [] → ¬sep <+: l ++ sep) (hne : sep ≠ []) (rest : List Char) :
    afterFirst sep (before ++ (sep ++ rest)) = rest := by
  induction before with
  | nil =>
    obtain ⟨c, cs, rfl⟩ := List.exists_cons_of_ne_nil hne
    rw [List.nil_append, List.cons_append, afterFirst, if_pos ⟨rest, List.cons_append⟩,
      ← List.cons_append, List.drop_left]
  | cons c before ih =>
    have hlater : ¬sep <+: c :: (before ++ (sep ++ rest)) := by
      intro hearlier
      refine h (c :: before) (by simp) (by simp) ?_
      refine List.prefix_of_prefix_length_le hearlier ⟨rest, by simp⟩ ?_
      rw [List.length_append]
      exact Nat.le_add_left _ _
    rw [List.cons_append, afterFirst, if_neg hlater]
    refine ih fun l hl => h l ?_
    rw [List.tails_cons]
    exact List.mem_cons_of_mem _ hl

theorem beforeFirst_eq_self {c : Char} (sep : List Char) (h : c ∉ cs) :
    beforeFirst (c :: sep) cs = cs := by
  induction cs with
  | nil => rfl
  | cons d cs ih =>
    obtain ⟨hne, hcs⟩ := not_or.mp (mt List.mem_cons.mpr h)
    have hstart : ¬c :: sep <+: d :: cs := fun hsep => hne (List.cons_prefix_cons.mp hsep).1
    rw [beforeFirst, if_neg hstart, ih hcs]

theorem prefix_beforeFirst {sep before : List Char}
    (h : ∀ l ∈ before.tails, l ≠ [] → ¬sep <+: l ∧ ¬l <+: sep) (rest : List Char) :
    before <+: beforeFirst sep (before ++ rest) := by
  induction before with
  | nil => exact List.nil_prefix
  | cons c before ih =>
    obtain ⟨hsep, hbefore⟩ := h (c :: before) (by simp) (by simp)
    have hlater : ¬sep <+: (c :: before) ++ rest := by
      intro hearlier
      rcases List.prefix_or_prefix_of_prefix hearlier (List.prefix_append _ _) with h | h
      · exact hsep h
      · exact hbefore h
    rw [List.cons_append] at hlater ⊢
    rw [beforeFirst, if_neg hlater]
    refine List.cons_prefix_cons.mpr ⟨rfl, ih fun l hl => h l ?_⟩
    rw [List.tails_cons]
    exact List.mem_cons_of_mem _ hl

def Service.base (svc : Service) : String :=
  (if svc.namespace = "" then "" else svc.namespace ++ ":") ++ "risk:"

theorem redisKey_toList (svc : Service) (keyType identifier : String) :
    (svc.redisKey keyType identifier).toList =
      svc.base.toList ++ (keyType.toList ++ ':' :: identifier.toList) := by
  unfold Service.redisKey Service.base
  dsimp only
  split <;> simp [toString]

theorem redisKey_append (svc : Service) (keyType a b : String) :
    svc.redisKey keyType (a ++ b) = svc.redisKey keyType a ++ b := by
  rw [← String.toList_inj, String.toList_append, redisKey_toList, redisKey_toList,
    String.toList_append (s := a)]
  simp only [List.append_assoc, List.cons_append]

theorem namespace_cases {svc : Service} (h : ∀ b ∈ svc.activeBrokers, b = "paper" ∨ b = "zerodha") :
    svc.namespace = "" ∨ svc.namespace = "paper" ∨ svc.namespace = "zerodha" := by
  rcases hbrokers : svc.activeBrokers.getLast? with _ | b
  · rw [Service.namespace, List.getLastD_eq_getLast?, hbrokers]
    exact .inl rfl
  · rw [Service.namespace, List.getLastD_eq_getLast?, hbrokers]
    exact .inr (h b (List.mem_of_getLast? hbrokers))

theorem afterFirst_redisKey {svc : Service} {keyType sep : String}
    (h : ∀ l ∈ (svc.base ++ keyType ++ ":").toList.tails, l ≠ [] → ¬sep.toList <+: l ++ sep.toList)
    (hne : sep.toList ≠ []) (rest : String) :
    afterFirst sep.toList (svc.redisKey keyType (sep ++ rest)).toList = rest.toList := by
  have hkey : (svc.redisKey keyType (sep ++ rest)).toList =
      (svc.base ++ keyType ++ ":").toList ++ (sep.toList ++ rest.toList) := by
    rw [redisKey_toList, String.toList_append (s := sep), String.toList_append (s := svc.base ++ _),
      String.toList_append (s := svc.base)]
    simp
  rw [hkey, afterFirst_append h hne]

/-- The key that a validated signal is counted under. -/
def Service.tradeKey (svc : Service) (broker strategyId today : String) : String :=
  svc.redisKey "counter" (if broker = "" then s!"daily_trades_{strategyId}_{today}"
    else s!"daily_trades_{broker}_{strategyId}_{today}")

def tradeName (key : String) : String := "daily_trades_" ++ secondPart "daily_trades_" key

/-- The name that the rule looks up. -/
def lookedUp (strategyId today : String) : String := s!"daily_trades_{strategyId}_{today}"

theorem broker_cases (topic : String) : TopicMap.getBrokerFromTopic topic ∈
    ["paper", "zerodha", "unknown"] := by
  unfold TopicMap.getBrokerFromTopic
  dsimp only
  split
  · rename_i h
    exact List.mem_append_left ["unknown"] h.2
  · simp

theorem prefix_secondPart_tradeKey {svc : Service}
    (h : ∀ b ∈ svc.activeBrokers, b = "paper" ∨ b = "zerodha")
    (hbroker : broker ∈ ["paper", "zerodha", "unknown"]) (strategyId today : String) :
    (broker ++ "_").toList <+:
      (secondPart "daily_trades_" (svc.tradeKey broker strategyId today)).toList := by
  have hne : broker ≠ "" := by
    rintro rfl
    simp at hbroker
  have hbase : ∀ l ∈ (svc.base ++ "counter" ++ ":").toList.tails, l ≠ [] →
      ¬"daily_trades_".toList <+: l ++ "daily_trades_".toList := by
    rcases namespace_cases h with hns | hns | hns <;> rw [Service.base, hns] <;> decide +kernel
  have hkey : svc.tradeKey broker strategyId today =
      svc.redisKey "counter" ("daily_trades_" ++ (broker ++ "_" ++ (strategyId ++ "_" ++ today))) := by
    rw [Service.tradeKey, if_neg hne]
    simp only [toString, String.append_assoc]
  rw [secondPart, hkey, afterFirst_redisKey hbase (by decide +kernel), String.toList_ofList,
    String.toList_append (s := broker ++ "_")]
  refine prefix_beforeFirst ?_ _
  simp only [List.mem_cons, List.not_mem_nil, or_false] at hbroker
  rcases hbroker with rfl | rfl | rfl <;> decide +kernel

/-- No key that a signal is counted under is read under the name that is looked
up, unless that name starts with the broker. -/
theorem tradeName_tradeKey_ne {svc : Service}
    (h : ∀ b ∈ svc.activeBrokers, b = "paper" ∨ b = "zerodha")
    (hbroker : broker ∈ ["paper", "zerodha", "unknown"])
    (hapart : ¬(broker ++ "_").toList <+: (strategy ++ "_" ++ day).toList)
    (strategyId today : String) :
    tradeName (svc.tradeKey broker strategyId today) ≠ lookedUp strategy day := by
  intro hsame
  have hlooked : lookedUp strategy day = "daily_trades_" ++ (strategy ++ "_" ++ day) := by
    delta lookedUp
    simp only [toString, String.append_assoc]
  rw [hlooked] at hsame
  have hlist := List.append_cancel_left (String.toList_append.symm.trans
    ((congrArg String.toList hsame).trans String.toList_append))
  exact hapart (hlist ▸ prefix_secondPart_tradeKey h hbroker strategyId today)

end AlphaPanda.Risk
