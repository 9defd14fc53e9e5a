import TraderBot.LiveCanary.Assessment

/-! # The loss cut-off

Over any calls of the store: a fill is accounted once, the peak loss only rises, a
loss limit that is reached halts for good, what is halted and open is up for closing,
and a permit is claimed once. -/
namespace TraderBot.LiveCanary
open TraderBot.Lib TraderBot.Lib.Text

/-! ## Identities -/

section
variable {unicode : Unicode} {i n m : LiveCanaryExecutionIdentity}

/-- An identity as `normalized` gives it back. -/
def Normal (unicode : Unicode) (n : LiveCanaryExecutionIdentity) : Prop :=
  ∃ i : LiveCanaryExecutionIdentity, i.normalized unicode = .ok n

theorem normalized_parts (h : i.normalized unicode = .ok n) :
    n.releaseId = strip i.releaseId ∧ ∃ permit, Uuid.parse unicode i.permitId = some permit ∧
      n.permitId = permit.str := by
  unfold LiveCanaryExecutionIdentity.normalized at h
  obtain ⟨permit, hpermit, h⟩ := bind_ok h
  obtain ⟨intent, -, h⟩ := bind_ok h
  obtain ⟨maxNotional, -, h⟩ := bind_ok h
  obtain ⟨maxCumulativeLoss, -, h⟩ := bind_ok h
  obtain ⟨authorizedLimitPrice, -, h⟩ := bind_ok h
  obtain ⟨expiresAt, -, h⟩ := bind_ok h
  iterate 8 obtain ⟨-, -, h⟩ := bind_ok h
  iterate 3 obtain ⟨_, -, h⟩ := bind_ok h
  cases pure_ok h
  exact ⟨rfl, permit, orRaise_ok hpermit, rfl⟩

/-- Normalizing again keeps the release and the permit. -/
theorem Normal.again (hn : Normal unicode n) (h : n.normalized unicode = .ok m) :
    m.releaseId = n.releaseId ∧ m.permitId = n.permitId := by
  obtain ⟨i, hi⟩ := hn
  obtain ⟨hrelease, permit, -, hpermit⟩ := normalized_parts hi
  obtain ⟨hrelease', permit', hparse, hpermit'⟩ := normalized_parts h
  rw [hpermit, Uuid.parse_str] at hparse
  cases hparse
  exact ⟨by rw [hrelease', hrelease, strip_strip], by rw [hpermit', hpermit]⟩

/-- The same identity is under the same key. -/
theorem sameIdentity_key (hn : Normal unicode n) (hm : Normal unicode m)
    (h : sameIdentity unicode n m = .ok true) : permitKey n = permitKey m := by
  obtain ⟨left, hleft, h⟩ := bind_ok h
  obtain ⟨right, hright, h⟩ := bind_ok h
  have heq : left = right := of_decide_eq_true (pure_ok h)
  subst heq
  obtain ⟨hrelease, hpermit⟩ := hn.again hleft
  obtain ⟨hrelease', hpermit'⟩ := hm.again hright
  rw [permitKey, permitKey, ← hrelease, ← hpermit, ← hrelease', ← hpermit']

/-- A key says which permit it is for. -/
theorem permit_of_key (hn : Normal unicode n) (hm : Normal unicode m) (h : permitKey n = permitKey m) :
    n.permitId = m.permitId := by
  obtain ⟨i, hi⟩ := hn
  obtain ⟨j, hj⟩ := hm
  obtain ⟨-, permit, -, hpermit⟩ := normalized_parts hi
  obtain ⟨-, permit', -, hpermit'⟩ := normalized_parts hj
  have hlists := congrArg String.toList h
  simp only [permitKey, String.toList_append] at hlists
  have hlength : n.permitId.toList.length = m.permitId.toList.length := by
    rw [hpermit, hpermit', Uuid.str_length, Uuid.str_length]
  exact String.toList_injective (List.append_inj_right' hlists hlength)

end

/-! ## What an operation does -/

/-- States up to the dispatch, before anything is filled. -/
def early (state : LiveCanaryExecutionState) : Prop := pastDispatch state = false

/-- What an operation may write under a key. -/
inductive Change (unicode : Unicode) (now : String) (records : Records) (operation : Operation) :
    String → LiveCanaryExecutionRecord → Prop where
  | created {n : LiveCanaryExecutionIdentity} {state : LiveCanaryExecutionState} (hn : Normal unicode n)
      (hnone : recordForClaim records n = none) (hstate : early state) :
      Change unicode now records operation (permitKey n) (newRecord n state now)
  | restarted {n : LiveCanaryExecutionIdentity} {r : LiveCanaryExecutionRecord}
      {state : LiveCanaryExecutionState} (hn : Normal unicode n) (hr : recordForClaim records n = some r)
      (hsame : sameIdentity unicode r.identity n = .ok true) (hearly : early r.state)
      (hstate : state ≠ .received) :
      Change unicode now records operation (permitKey n) (newRecord n state now)
  | moved {key : String} {r : LiveCanaryExecutionRecord} {state : LiveCanaryExecutionState}
      (hr : records.get? key = some r)
      (hmove : early r.state ∧ state = .exchangeConfirmed ∨ r.state = .lossLimitHalted ∧ state = .closeDispatched) :
      Change unicode now records operation key { r with state := state, updatedAt := now }
  | filled {key : String} {r r' : LiveCanaryExecutionRecord} {fill : LiveCanaryFill} {f : NormalFill}
      (hoperation : operation = .recordFill fill) (hf : fill.normalized unicode = .ok f)
      (hr : records.get? key = some r) (hnew : f.fillId ∉ r.processedFillIds)
      (hfill : recordWithFill unicode r f now = .ok r') : Change unicode now records operation key r'
  | marked {key : String} {r r' : LiveCanaryExecutionRecord} {m : NormalMark}
      (hr : records.get? key = some r) (hopen : isZero r.netQuantity = false)
      (hmark : recordWithMark unicode r m now = .ok r') : Change unicode now records operation key r'

section
variable {unicode : Unicode} {now : String} {records written : Records} {answer : Answer}

variable {r : LiveCanaryExecutionRecord} {n identity : LiveCanaryExecutionIdentity}
  {operation : Operation}

theorem entry_found {clientOrderId key : String}
    (h : entryForClientOrderId records clientOrderId = some (key, r)) : records.get? key = some r :=
  Dict.mem_items.mp (List.mem_of_find?_eq_some h)

theorem recordOf_ok (h : recordOf unicode records n = .ok r) :
    recordForPermit records n = some r ∧ sameIdentity unicode r.identity n = .ok true := by
  unfold recordOf at h
  cases hfound : recordForPermit records n with
  | none =>
    rw [hfound] at h
    cases h
  | some found =>
    rw [hfound] at h
    obtain ⟨same, hsame, h⟩ := bind_ok h
    obtain ⟨_, hrefuse, h⟩ := bind_ok h
    cases pure_ok h
    have htrue : same = true := by simpa using refuseIf_ok hrefuse
    exact ⟨rfl, htrue ▸ hsame⟩

theorem recordForClaim_of_permit (h : recordForPermit records n = some r) :
    recordForClaim records n = some r := by
  unfold recordForClaim
  rw [h]

theorem transition_cases {target : LiveCanaryExecutionState} (htarget : target ≠ .received)
    (h : transition unicode now records identity target = .ok (answer, some written)) :
    ∃ key r', written = records.set key r' ∧ Change unicode now records operation key r' := by
  unfold transition at h
  obtain ⟨n, hn, h⟩ := bind_ok h
  obtain ⟨r, hr, h⟩ := bind_ok h
  obtain ⟨_, -, h⟩ := bind_ok h
  obtain ⟨hfound, hsame⟩ := recordOf_ok hr
  cases hpast : pastDispatch r.state with
  | true =>
    rw [hpast] at h
    cases pure_ok h
  | false =>
    rw [hpast, if_neg Bool.false_ne_true] at h
    by_cases hstate : r.state = target
    · rw [if_pos hstate] at h
      cases pure_ok h
    · rw [if_neg hstate] at h
      cases pure_ok h
      exact ⟨_, _, rfl, .restarted ⟨identity, hn⟩ (recordForClaim_of_permit hfound) hsame hpast htarget⟩

/-- **What an operation writes** is one record, by one of these changes. -/
theorem operate_cases (h : operate unicode now records operation = .ok (answer, some written)) :
    ∃ key r', written = records.set key r' ∧ Change unicode now records operation key r' := by
  cases operation with
  | registerReceived identity =>
    obtain ⟨n, hn, h⟩ := bind_ok h
    cases hfound : recordForClaim records n with
    | none =>
      rw [hfound] at h
      cases pure_ok h
      exact ⟨_, _, rfl, .created ⟨identity, hn⟩ hfound rfl⟩
    | some r =>
      rw [hfound] at h
      obtain ⟨same, -, h⟩ := bind_ok h
      cases pure_ok h
  | claim identity =>
    obtain ⟨n, hn, h⟩ := bind_ok h
    cases hfound : recordForClaim records n with
    | none =>
      rw [hfound] at h
      cases pure_ok h
      exact ⟨_, _, rfl, .created ⟨identity, hn⟩ hfound rfl⟩
    | some r =>
      rw [hfound] at h
      obtain ⟨same, hsame, h⟩ := bind_ok h
      cases same with
      | false => cases pure_ok h
      | true =>
        rw [Bool.not_true, if_neg Bool.false_ne_true] at h
        by_cases hreceived : r.state = .received
        · rw [if_pos hreceived] at h
          cases pure_ok h
          exact ⟨_, _, rfl, .restarted ⟨identity, hn⟩ hfound hsame (by rw [hreceived]; rfl) (by decide)⟩
        · rw [if_neg hreceived] at h
          cases pure_ok h
  | markDispatched identity => exact transition_cases (by decide) h
  | markExchangeConfirmed identity => exact transition_cases (by decide) h
  | markExchangeConfirmedByClientOrderId clientOrderId =>
    change markExchangeConfirmedByClientOrderId now records clientOrderId = _ at h
    unfold markExchangeConfirmedByClientOrderId at h
    by_cases hblank : strip clientOrderId = ""
    · rw [if_pos hblank] at h
      cases h
    rw [if_neg hblank] at h
    cases hfound : entryForClientOrderId records (strip clientOrderId) with
    | none =>
      rw [hfound] at h
      cases h
    | some entry =>
      obtain ⟨key, r⟩ := entry
      rw [hfound] at h
      dsimp only at h
      cases hpast : pastDispatch r.state with
      | true =>
        rw [hpast] at h
        cases h
      | false =>
        rw [hpast, if_neg Bool.false_ne_true] at h
        split_ifs at h
        cases h
        exact ⟨_, _, rfl, .moved (entry_found hfound) (.inl ⟨hpast, rfl⟩)⟩
  | recordFill fill =>
    obtain ⟨f, hf, h⟩ := bind_ok h
    cases hfound : entryForClientOrderId records f.clientOrderId with
    | none =>
      rw [hfound] at h
      cases pure_ok h
    | some entry =>
      obtain ⟨key, r⟩ := entry
      rw [hfound] at h
      dsimp only at h
      by_cases hnew : f.fillId ∈ r.processedFillIds
      · rw [if_pos hnew] at h
        cases pure_ok h
      · rw [if_neg hnew] at h
        obtain ⟨r', hr', h⟩ := bind_ok h
        cases pure_ok h
        exact ⟨_, _, rfl, .filled rfl hf (entry_found hfound) hnew hr'⟩
  | recordMark mark =>
    obtain ⟨m, hm, h⟩ := bind_ok h
    cases hfound : entryForClientOrderId records m.clientOrderId with
    | none =>
      rw [hfound] at h
      cases pure_ok h
    | some entry =>
      obtain ⟨key, r⟩ := entry
      rw [hfound] at h
      dsimp only at h
      by_cases hskip : r.state = .closed ∨ isZero r.netQuantity = true
      · rw [if_pos hskip] at h
        cases pure_ok h
      · rw [if_neg hskip] at h
        obtain ⟨r', hr', h⟩ := bind_ok h
        cases pure_ok h
        rw [not_or] at hskip
        exact ⟨_, _, rfl, .marked (entry_found hfound) (by simpa using hskip.2) hr'⟩
  | markCloseDispatched identity =>
    obtain ⟨n, hn, h⟩ := bind_ok h
    obtain ⟨r, hr, h⟩ := bind_ok h
    obtain ⟨hfound, -⟩ := recordOf_ok hr
    by_cases hclosing : r.state = .closed ∨ r.state = .closeDispatched
    · rw [if_pos hclosing] at h
      cases pure_ok h
    · rw [if_neg hclosing] at h
      obtain ⟨_, hhalted, h⟩ := bind_ok h
      cases pure_ok h
      have hstate : r.state = .lossLimitHalted := by simpa using refuseIf_ok hhalted
      exact ⟨_, _, rfl, .moved hfound (.inr ⟨hstate, rfl⟩)⟩

/-- A claim that is acquired finds no record of its permit, or one that was received only. -/
theorem claim_acquired {written : Option Records}
    (h : claim unicode now records identity = .ok (.claimed .acquired, written)) :
    ∃ n, identity.normalized unicode = .ok n ∧ written = some (putRecord records n .claimed now) ∧
      ∀ r, recordForClaim records n = some r → r.state = .received := by
  unfold claim at h
  obtain ⟨n, hn, h⟩ := bind_ok h
  refine ⟨n, hn, ?_⟩
  cases hfound : recordForClaim records n with
  | none =>
    rw [hfound] at h
    cases pure_ok h
    exact ⟨rfl, fun r hr => by cases hr⟩
  | some r =>
    rw [hfound] at h
    obtain ⟨same, -, h⟩ := bind_ok h
    cases same with
    | false => cases pure_ok h
    | true =>
      rw [Bool.not_true, if_neg Bool.false_ne_true] at h
      by_cases hreceived : r.state = .received
      · rw [if_pos hreceived] at h
        cases pure_ok h
        exact ⟨rfl, fun r' hr' => by cases hr'; exact hreceived⟩
      · rw [if_neg hreceived] at h
        cases pure_ok h

end

/-! ## Records -/

/-- What holds of every record. -/
structure Held (unicode : Unicode) (r : LiveCanaryExecutionRecord) : Prop where
  once : r.processedFillIds.Nodup
  fresh : early r.state → r = newRecord r.identity r.state r.updatedAt
  rounded : Rounded r.netQuantity
  reached : ∀ limit, storedDecimal unicode r.maxCumulativeLossUsdt = .ok limit → 0 < limit.value →
    limit.value ≤ r.peakLossUsdt.value → r.haltReason ≠ ""
  pending : r.haltReason ≠ "" → r.netQuantity.value ≠ 0 → Pending r r.netQuantity.value

/-- What a step may make of a record: fills are added, the peak loss rises, a reason to halt
stays, and once a fill was processed the accounts change by a further fill only. -/
structure Follows (unicode : Unicode) (call : Call) (r r' : LiveCanaryExecutionRecord) : Prop where
  fills : r.processedFillIds <+: r'.processedFillIds
  peak : r.peakLossUsdt.value ≤ r'.peakLossUsdt.value
  halt : r.haltReason ≠ "" → r'.haltReason = r.haltReason
  accounts : r.processedFillIds ≠ [] → r'.accounts = r.accounts ∨
    ∃ fill f, call.operation = .recordFill fill ∧ fill.normalized unicode = .ok f ∧
      f.fillId ∉ r.processedFillIds ∧ recordWithFill unicode r f call.now = .ok r'

theorem Follows.refl (unicode : Unicode) (call : Call) (r : LiveCanaryExecutionRecord) : Follows unicode call r r :=
  ⟨List.prefix_rfl, le_rfl, fun _ => rfl, fun _ => .inl rfl⟩

section
variable {unicode : Unicode}

theorem held_new (i : LiveCanaryExecutionIdentity) (state : LiveCanaryExecutionState) (now : String) :
    Held unicode (newRecord i state now) where
  once := List.nodup_nil
  fresh _ := rfl
  rounded := Rounded.zero
  reached limit _ hpositive hreached := by
    have hzero : (newRecord i state now).peakLossUsdt.value = 0 := FiniteDecimal.zero_value
    rw [hzero] at hreached
    exact absurd hreached (not_le.mpr hpositive)
  pending hhalted := absurd rfl hhalted

/-- An assessed record holds, where its fills and its position do. -/
theorem held_of_assessed {r r' : LiveCanaryExecutionRecord} {net : FiniteDecimal}
    (h : Assessed unicode r r' net) (hnet : Rounded net) (hfills : r'.processedFillIds.Nodup) :
    Held unicode r' where
  once := hfills
  fresh hearly := by
    have hpast := h.past
    rw [show pastDispatch r'.state = false from hearly] at hpast
    cases hpast
  rounded := hnet.congr h.opened
  reached _ hlimit _ hreached := h.reached hlimit hreached
  pending hhalted hopen := h.pending hnet hhalted hopen

theorem Held.move {r : LiveCanaryExecutionRecord} (h : Held unicode r) {state : LiveCanaryExecutionState}
    {now : String}
    (hmove : early r.state ∧ state = .exchangeConfirmed ∨ r.state = .lossLimitHalted ∧ state = .closeDispatched) :
    Held unicode { r with state := state, updatedAt := now } where
  once := h.once
  fresh hearly := by
    rcases hmove with ⟨-, rfl⟩ | ⟨-, rfl⟩ <;> cases hearly
  rounded := h.rounded
  reached := h.reached
  pending hhalted hopen := by
    rcases hmove with ⟨hearly, rfl⟩ | ⟨-, rfl⟩
    · have hnone : r.haltReason = "" := by rw [h.fresh hearly]; rfl
      exact absurd hnone hhalted
    · obtain ⟨-, hquantity, hside⟩ := h.pending hhalted hopen
      exact ⟨.inr rfl, hquantity, hside⟩

end

/-! ## The store -/

/-- What holds of the records: each is held, under the key of its permit, one for a permit. -/
structure StoreHeld (unicode : Unicode) (records : Records) : Prop where
  held : ∀ {key r}, records.get? key = some r → Held unicode r
  normal : ∀ {key r}, records.get? key = some r → Normal unicode r.identity ∧ key = permitKey r.identity
  unique : ∀ {key key' r r'}, records.get? key = some r → records.get? key' = some r' →
    r.permitId = r'.permitId → key = key'

section
variable {unicode : Unicode} {now : String} {records : Records} {n : LiveCanaryExecutionIdentity}

variable {r r' : LiveCanaryExecutionRecord} {key : String} {call : Call}

/-- What a claim finds is the record of its permit. -/
theorem StoreHeld.found (hs : StoreHeld unicode records) (hn : Normal unicode n)
    (h : recordForClaim records n = some r) :
    ∃ key, records.get? key = some r ∧ r.permitId = n.permitId := by
  unfold recordForClaim at h
  cases hexact : recordForPermit records n with
  | some exact' =>
    rw [hexact] at h
    cases h
    obtain ⟨hnormal, hkey⟩ := hs.normal hexact
    exact ⟨_, hexact, (permit_of_key hn hnormal hkey).symm⟩
  | none =>
    rw [hexact] at h
    obtain ⟨⟨key, found⟩, hfound, rfl⟩ := Option.map_eq_some_iff.mp h
    exact ⟨key, Dict.mem_items.mp (List.mem_of_find?_eq_some hfound),
      by simpa using List.find?_some hfound⟩

/-- What finds nothing has no record of its permit. -/
theorem not_found (h : recordForClaim records n = none) (hr : records.get? key = some r) :
    r.permitId ≠ n.permitId := by
  unfold recordForClaim at h
  cases hexact : recordForPermit records n with
  | some _ =>
    rw [hexact] at h
    cases h
  | none =>
    rw [hexact] at h
    have hall := List.find?_eq_none.mp (Option.map_eq_none_iff.mp h)
    intro heq
    exact hall (key, r) (Dict.mem_items.mpr hr) (decide_eq_true heq)

/-- A record that is started again is where it was. -/
theorem StoreHeld.restarted (hs : StoreHeld unicode records) (hn : Normal unicode n)
    (h : recordForClaim records n = some r) (hsame : sameIdentity unicode r.identity n = .ok true) :
    records.get? (permitKey n) = some r ∧ r.permitId = n.permitId := by
  obtain ⟨key, hr, hpermit⟩ := hs.found hn h
  obtain ⟨hnormal, hkey⟩ := hs.normal hr
  rw [hkey, sameIdentity_key hnormal hn hsame] at hr
  exact ⟨hr, hpermit⟩

/-- What a change leaves under its key, next to what was there. -/
structure Changes (unicode : Unicode) (call : Call) (records : Records) (key : String)
    (r' : LiveCanaryExecutionRecord) : Prop where
  held : Held unicode r'
  normal : Normal unicode r'.identity ∧ key = permitKey r'.identity
  follows : ∀ r, records.get? key = some r → Follows unicode call r r' ∧ r.permitId = r'.permitId ∧
    (r.state ≠ .received → r'.state ≠ .received)
  alone : ∀ key' r, records.get? key' = some r → r.permitId = r'.permitId → key' = key

theorem StoreHeld.change (hs : StoreHeld unicode records)
    (h : Change unicode call.now records call.operation key r') :
    Changes unicode call records key r' := by
  cases h with
  | created hn hnone hstate =>
    refine ⟨held_new _ _ _, ⟨hn, rfl⟩, fun r hr => ?_, fun key' r hr hpermit => ?_⟩
    · have hexact := not_found hnone hr
      exact absurd (permit_of_key (hs.normal hr).1 hn (hs.normal hr).2.symm) hexact
    · exact absurd hpermit (not_found hnone hr)
  | @restarted n r state hn hr hsame hearly hstate =>
    obtain ⟨hat, hpermit⟩ := hs.restarted hn hr hsame
    refine ⟨held_new _ _ _, ⟨hn, rfl⟩, fun r₀ hr₀ => ?_, fun key' r₀ hr₀ hpermit₀ => ?_⟩
    · cases hat.symm.trans hr₀
      have hfresh := (hs.held hat).fresh hearly
      refine ⟨⟨?_, ?_, fun hhalted => ?_, fun hfills => ?_⟩, hpermit, fun _ => hstate⟩
      · rw [hfresh]
        exact List.prefix_rfl
      · rw [hfresh]
        exact le_rfl
      · rw [hfresh] at hhalted
        exact absurd rfl hhalted
      · rw [hfresh] at hfills
        exact absurd rfl hfills
    · exact hs.unique hr₀ hat (hpermit₀.trans hpermit.symm)
  | @moved key r state hr hmove =>
    have hnormal := hs.normal hr
    refine ⟨(hs.held hr).move hmove, hnormal, fun r₀ hr₀ => ?_, fun key' r₀ hr₀ hpermit => ?_⟩
    · cases hr.symm.trans hr₀
      refine ⟨⟨List.prefix_rfl, le_rfl, fun _ => rfl, fun _ => .inl rfl⟩, rfl, fun _ => ?_⟩
      rcases hmove with ⟨-, rfl⟩ | ⟨-, rfl⟩ <;> exact nofun
    · exact hs.unique hr₀ hr hpermit
  | @filled key r r' fill f hoperation hf hr hnew hfill =>
    obtain ⟨hfills, net, hnet, hassessed⟩ := recordWithFill_assessed hfill
    have hrounded : Rounded net := hnet.elim (fun heq => heq ▸ (hs.held hr).rounded) id
    have hnodup : r'.processedFillIds.Nodup := by
      rw [hfills, ← List.concat_eq_append]
      exact (hs.held hr).once.concat hnew
    refine ⟨held_of_assessed hassessed hrounded hnodup, ?_, fun r₀ hr₀ => ?_, fun key' r₀ hr₀ hpermit => ?_⟩
    · rw [hassessed.kept]
      exact hs.normal hr
    · cases hr.symm.trans hr₀
      refine ⟨⟨⟨_, hfills.symm⟩, hassessed.peak, hassessed.halt, fun _ => .inr ?_⟩, ?_, fun _ => ?_⟩
      · exact ⟨fill, f, hoperation, hf, hnew, hfill⟩
      · exact congrArg LiveCanaryExecutionIdentity.permitId hassessed.kept.symm
      · intro hreceived
        have hpast := hassessed.past
        rw [hreceived] at hpast
        cases hpast
    · refine hs.unique hr₀ hr (hpermit.trans ?_)
      exact congrArg LiveCanaryExecutionIdentity.permitId hassessed.kept
  | @marked key r r' m hr hopen hmark =>
    obtain ⟨haccounts, hassessed⟩ := recordWithMark_assessed hmark
    have hfills : r'.processedFillIds = r.processedFillIds := congrArg Prod.fst haccounts
    refine ⟨held_of_assessed hassessed (hs.held hr).rounded (hfills ▸ (hs.held hr).once), ?_, fun r₀ hr₀ => ?_,
      fun key' r₀ hr₀ hpermit => ?_⟩
    · rw [hassessed.kept]
      exact hs.normal hr
    · cases hr.symm.trans hr₀
      refine ⟨⟨?_, hassessed.peak, hassessed.halt, fun _ => .inl haccounts⟩, ?_, fun _ => ?_⟩
      · rw [hfills]
      · exact congrArg LiveCanaryExecutionIdentity.permitId hassessed.kept.symm
      · intro hreceived
        have hpast := hassessed.past
        rw [hreceived] at hpast
        cases hpast
    · refine hs.unique hr₀ hr (hpermit.trans ?_)
      exact congrArg LiveCanaryExecutionIdentity.permitId hassessed.kept

theorem StoreHeld.set (hs : StoreHeld unicode records) (h : Changes unicode call records key r') :
    StoreHeld unicode (records.set key r') where
  held {l r} hr := by
    rw [Dict.get?_set] at hr
    split_ifs at hr with hl
    · cases hr
      exact h.held
    · exact hs.held hr
  normal {l r} hr := by
    rw [Dict.get?_set] at hr
    split_ifs at hr with hl
    · cases hr
      exact hl ▸ h.normal
    · exact hs.normal hr
  unique {l l' r r₁} hr hr₁ hpermit := by
    rw [Dict.get?_set] at hr hr₁
    split_ifs at hr hr₁ with hl hl' hl'
    · rw [hl, hl']
    · cases hr
      rw [hl, h.alone l' r₁ hr₁ hpermit.symm]
    · cases hr₁
      rw [hl', h.alone l r hr hpermit]
    · exact hs.unique hr hr₁ hpermit

end

/-! ## Runs -/

section
variable {unicode : Unicode} {records : Records}

theorem storeHeld_empty : StoreHeld unicode Dict.empty where
  held := nofun
  normal := nofun
  unique := nofun

/-- One call: every record is still there, and follows from what it was. -/
theorem StoreHeld.step (hs : StoreHeld unicode records) (call : Call) :
    StoreHeld unicode ((store unicode).next records call) ∧ ∀ key r, records.get? key = some r →
      ∃ r', ((store unicode).next records call).get? key = some r' ∧ Follows unicode call r r' ∧
        r.permitId = r'.permitId ∧ (r.state ≠ .received → r'.state ≠ .received) := by
  have hsame : StoreHeld unicode records ∧ ∀ key r, records.get? key = some r →
      ∃ r', records.get? key = some r' ∧ Follows unicode call r r' ∧
        r.permitId = r'.permitId ∧ (r.state ≠ .received → r'.state ≠ .received) :=
    ⟨hs, fun key r hr => ⟨r, hr, Follows.refl unicode call r, rfl, id⟩⟩
  unfold Machine.next store
  dsimp only
  cases hout : operate unicode call.now records call.operation with
  | error failure => exact hsame
  | ok out =>
    obtain ⟨answer, _ | written⟩ := out
    · exact hsame
    have hwritten : StoreHeld unicode written ∧ ∀ key r, records.get? key = some r →
        ∃ r', written.get? key = some r' ∧ Follows unicode call r r' ∧
          r.permitId = r'.permitId ∧ (r.state ≠ .received → r'.state ≠ .received) := by
      obtain ⟨key, r', rfl, hchange⟩ := operate_cases hout
      have hchanges := hs.change hchange
      refine ⟨hs.set hchanges, fun key' r hr => ?_⟩
      rw [Dict.get?_set]
      by_cases hkey : key' = key
      · rw [if_pos hkey]
        exact ⟨r', rfl, hchanges.follows r (hkey ▸ hr)⟩
      · rw [if_neg hkey]
        exact ⟨r, hr, Follows.refl unicode call r, rfl, id⟩
    cases call.write with
    | done => exact hwritten
    | raisedBefore => exact hsame
    | raisedAfter => exact hwritten

variable (unicode) in
/-- How often a permit has been acquired, call by call. -/
def acquired (permit : String) (count : Nat) (call : Call) (answer : Except Failure Answer) : Nat :=
  match call.operation, answer with
  | .claim identity, .ok (.claimed .acquired) =>
    if (identity.normalized unicode).toOption.map (·.permitId) = some permit then count + 1 else count
  | _, _ => count

/-- A permit that was acquired has a record that is claimed. -/
def Acquired (permit : String) (records : Records) (count : Nat) : Prop :=
  count ≤ 1 ∧ (count = 1 → ∃ key r, records.get? key = some r ∧ r.permitId = permit ∧ r.state ≠ .received)

variable (unicode) in
theorem acquired_cases (permit : String) (count : Nat) (call : Call) (answer : Except Failure Answer) :
    acquired unicode permit count call answer = count ∨
      ∃ identity n, call.operation = .claim identity ∧ answer = .ok (.claimed .acquired) ∧
        identity.normalized unicode = .ok n ∧ n.permitId = permit ∧
        acquired unicode permit count call answer = count + 1 := by
  unfold acquired
  split
  · rename_i identity hoperation
    by_cases hpermit : (identity.normalized unicode).toOption.map (·.permitId) = some permit
    · obtain ⟨n, hn, hpermit'⟩ := Option.map_eq_some_iff.mp hpermit
      exact .inr ⟨identity, n, hoperation, rfl, toOption_some hn, hpermit', if_pos hpermit⟩
    · exact .inl (if_neg hpermit)
  · exact .inl rfl

/-- A call that answers has written what it had to. -/
theorem mutate_answer {write : Write} {out : Outcome} {answer : Answer}
    (h : (mutate records write out).1 = .ok answer) :
    ∃ changed, out = .ok (answer, changed) ∧ ∀ written, changed = some written →
      (mutate records write out).2 = written := by
  cases out with
  | error failure => cases h
  | ok out =>
    obtain ⟨answer', _ | written⟩ := out
    · cases h
      exact ⟨none, rfl, nofun⟩
    · cases write with
      | done =>
        cases h
        exact ⟨_, rfl, fun _ heq => Option.some.inj heq⟩
      | raisedBefore => cases h
      | raisedAfter => cases h

theorem Acquired.step {permit : String} {count : Nat} (hs : StoreHeld unicode records)
    (h : Acquired permit records count) (call : Call) :
    Acquired permit ((store unicode).next records call)
      (acquired unicode permit count call ((store unicode).answer records call)) := by
  rcases acquired_cases unicode permit count call ((store unicode).answer records call) with
    hcount | ⟨identity, n, hoperation, hanswer, hn, hpermit, hcount⟩
  · rw [hcount]
    refine ⟨h.1, fun hone => ?_⟩
    obtain ⟨key, r, hr, hpermit, hstate⟩ := h.2 hone
    obtain ⟨r', hr', -, hsame, hkept⟩ := (hs.step call).2 key r hr
    exact ⟨key, r', hr', hsame.symm.trans hpermit, hkept hstate⟩
  · rw [hcount]
    obtain ⟨changed, hout, hnext⟩ := mutate_answer hanswer
    rw [hoperation] at hout
    obtain ⟨n', hn', hchanged, hreceived⟩ := claim_acquired hout
    rw [hn] at hn'
    cases hn'
    have hzero : count = 0 := by
      by_contra hne
      obtain ⟨key, r, hr, hpermit', hstate⟩ := h.2 (by have := h.1; omega)
      cases hfound : recordForClaim records n with
      | none => exact not_found hfound hr (hpermit'.trans hpermit.symm)
      | some found =>
        obtain ⟨key', hkey', hfoundPermit⟩ := hs.found ⟨identity, hn⟩ hfound
        have hkeys := hs.unique hr hkey' ((hpermit'.trans hpermit.symm).trans hfoundPermit.symm)
        subst hkeys
        cases hr.symm.trans hkey'
        exact hstate (hreceived _ hfound)
    refine ⟨by omega, fun _ => ?_⟩
    rw [show (store unicode).next records call = putRecord records n .claimed call.now from hnext _ hchanged]
    exact ⟨permitKey n, _, Dict.get?_set_self, hpermit, by exact nofun⟩

variable (unicode) in
/-- How often a permit is acquired in a run. -/
def acquisitions (permit : String) (calls : List Call) : Nat :=
  (store unicode).observe (acquired unicode permit) Dict.empty 0 calls

/-- What is halted and open is up for closing. -/
theorem pending_decision {key : String} {r : LiveCanaryExecutionRecord} (hr : records.get? key = some r)
    (hpending : Pending r r.netQuantity.value) (hopen : r.netQuantity.value ≠ 0) :
    ∃ d ∈ pendingCloseDecisions records, lossDecision r "" = some d := by
  have hpositive : r.closeRequiredQuantity.isPositive = true := by
    rw [FiniteDecimal.isPositive_iff, hpending.quantity]
    exact abs_pos.mpr hopen
  have hdecision : ∃ d, lossDecision r "" = some d := by
    unfold lossDecision
    rw [if_neg (by rcases hpending.state with h | h <;> simp [h]), hpositive, if_neg (by decide)]
    exact ⟨_, rfl⟩
  obtain ⟨d, hd⟩ := hdecision
  exact ⟨d, List.mem_filterMap.mpr ⟨(key, r), Dict.mem_items.mpr hr, hd⟩, hd⟩

end

/-- **The loss cut-off.** Whatever calls are made: each record stays, its fills are accounted
once, its peak loss only rises, a reason to halt stays and follows from a limit that is
reached, and what is halted and open is up for closing, whole and from the side that
reduces it; a permit is acquired once at most. -/
theorem loss_cut_off (unicode : Unicode) (calls : List Call) :
    (store unicode).Meets (fun records call => ∀ key r, records.get? key = some r →
        ∃ r', ((store unicode).next records call).get? key = some r' ∧ Follows unicode call r r')
      Dict.empty calls ∧
    (∀ key r, ((store unicode).after Dict.empty calls).get? key = some r →
      r.processedFillIds.Nodup ∧
      (∀ limit, storedDecimal unicode r.maxCumulativeLossUsdt = .ok limit → 0 < limit.value →
        limit.value ≤ r.peakLossUsdt.value → r.haltReason ≠ "") ∧
      (r.haltReason ≠ "" → r.netQuantity.value ≠ 0 → Pending r r.netQuantity.value ∧
        ∃ d ∈ pendingCloseDecisions ((store unicode).after Dict.empty calls), lossDecision r "" = some d)) ∧
    ∀ permit, acquisitions unicode permit calls ≤ 1 := by
  have hstep : ∀ records call, StoreHeld unicode records → StoreHeld unicode ((store unicode).next records call) :=
    fun _ call hs => (hs.step call).1
  refine ⟨?_, fun key r hr => ?_, fun permit => ?_⟩
  · refine Machine.meets_of_meets (P := fun _ _ => True) (fun records call hs _ => ⟨?_, hstep records call hs⟩)
      storeHeld_empty (Machine.meets_of_forall (fun _ _ => trivial) _ calls)
    intro key r hr
    obtain ⟨r', hr', hfollows, -⟩ := (hs.step call).2 key r hr
    exact ⟨r', hr', hfollows⟩
  · have hs := Machine.invariant hstep storeHeld_empty calls
    have hheld := hs.held hr
    refine ⟨hheld.once, hheld.reached, fun hhalted hopen => ?_⟩
    have hpending := hheld.pending hhalted hopen
    exact ⟨hpending, pending_decision hr hpending hopen⟩
  · have hrun := Machine.observe_invariant (f := acquired unicode permit)
      (R := fun records count => StoreHeld unicode records ∧ Acquired permit records count)
      (fun records count call h => ⟨hstep records call h.1, h.2.step h.1 call⟩)
      (⟨storeHeld_empty, Nat.zero_le 1, nofun⟩ : StoreHeld unicode Dict.empty ∧ Acquired permit Dict.empty 0) calls
    exact hrun.2.1

end TraderBot.LiveCanary
