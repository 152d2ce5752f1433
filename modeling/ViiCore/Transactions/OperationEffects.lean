import ViiCore.Transactions.CrossingEffects

/-!
The effect of each operation that succeeds, as a list of movements read off the operation
and its result.
-/

namespace ViiCore.Transactions

open ViiCore.Ledger ViiCore.FiniteMap ViiCore.Execution

variable {ledger : Ledger} {α β : Type}

/-! ### Computations that report success -/

abbrev Succeeds (x : Apply (Except OperationFailure α)) (ledger : Ledger)
    (post : α → Ledger → Prop) : Prop :=
  Ensures x ledger fun result after => ∀ value, result = .ok value → post value after

theorem Succeeds.mono {x : Apply (Except OperationFailure α)} {post post' : α → Ledger → Prop}
    (proved : Succeeds x ledger post) (weaken : ∀ value after, post value after → post' value after) :
    Succeeds x ledger post' := by
  apply Ensures.mono proved
  intro result after holds value ok
  exact weaken value after (holds value ok)

theorem Succeeds.and {x : Apply (Except OperationFailure α)} {post post' : α → Ledger → Prop}
    (one : Succeeds x ledger post) (other : Succeeds x ledger post') :
    Succeeds x ledger fun value after => post value after ∧ post' value after := by
  apply Ensures.mono (Ensures.and one other)
  intro result after both value ok
  exact ⟨both.1 value ok, both.2 value ok⟩

theorem Succeeds.ok {value : α} {post : α → Ledger → Prop} (holds : post value ledger) :
    Succeeds (return .ok value) ledger post := by
  rintro _ ⟨⟩
  exact holds

theorem Succeeds.error {code : OperationFailure} {post : α → Ledger → Prop} :
    Succeeds (return .error code) ledger post := by
  intro value impossible
  cases impossible

theorem Succeeds.andThen {step : Apply (Except OperationFailure α)}
    {next : α → Apply (Except OperationFailure β)} {mid : α → Ledger → Prop}
    {post : β → Ledger → Prop} (first : Succeeds step ledger mid)
    (second : ∀ value after, mid value after → Succeeds (next value) after post) :
    Succeeds (andThen step next) ledger post := by
  unfold Transactions.andThen
  apply Ensures.bind first
  intro result after reached
  cases result with
  | error code => exact Succeeds.error
  | ok value => exact second value after (reached value rfl)

theorem Succeeds.nested {body : Apply (Except OperationFailure α)} {post : α → Ledger → Prop}
    (proved : Succeeds body ledger post) : Succeeds (nested body) ledger post := by
  unfold Transactions.nested
  simp only [Succeeds, Ensures, wp_bind, wp_get]
  apply Ensures.mono proved
  intro result after reached
  cases result with
  | error code =>
      intro value impossible
      cases impossible
  | ok value =>
      rintro _ ⟨⟩
      exact reached value rfl

theorem ensures_true (x : Apply α) : Ensures x ledger fun _ _ => True := by
  unfold Ensures wp
  split <;> trivial

theorem Succeeds.rolledBack (body : Apply (Except OperationFailure α)) :
    Succeeds (rolledBack body) ledger fun _ after => after = ledger := by
  rw [Succeeds, Ensures, wp_rolledBack]
  apply Ensures.mono (ensures_true body)
  intro _ _ _ _ _
  rfl

/-! ### The offer operations -/

theorem addOfferEntry_follows (frame : ManageOfferOpFrame) :
    Succeeds frame.addOfferEntry ledger fun _ after =>
      Follows [] (only frame.sourceID 1) ledger after := by
  unfold ManageOfferOpFrame.addOfferEntry
  apply Ensures.bind (addNumEntriesOf_follows frame.sourceID 1)
  intro result after ⟨_, outcome⟩
  cases result with
  | SUCCESS =>
      rcases outcome with ⟨-, follows⟩ | ⟨impossible, -⟩
      · exact Succeeds.ok follows
      · exact absurd rfl impossible
  | LOW_RESERVE => exact Succeeds.error
  | TOO_MANY_SUBENTRIES => exact Succeeds.error

theorem addSubEntry_follows (accountID : AccountID) (lowReserve : OperationFailure) :
    Succeeds (addSubEntry accountID lowReserve) ledger fun _ after =>
      KeepsOffers ledger after ∧ Follows [] (only accountID 1) ledger after := by
  unfold addSubEntry
  apply Ensures.bind (addNumEntriesOf_follows accountID 1)
  intro result after ⟨keeps, outcome⟩
  cases result with
  | SUCCESS =>
      rcases outcome with ⟨-, follows⟩ | ⟨impossible, -⟩
      · exact Succeeds.ok ⟨keeps, follows⟩
      · exact absurd rfl impossible
  | LOW_RESERVE => exact Succeeds.error
  | TOO_MANY_SUBENTRIES => exact Succeeds.error

theorem takeOldOffer_follows (frame : ManageOfferOpFrame) :
    Succeeds frame.takeOldOffer ledger fun taken after =>
      Follows [] (if taken.1 then 0 else only frame.sourceID 1) ledger after := by
  unfold ManageOfferOpFrame.takeOldOffer
  split
  · simp only [Succeeds, Ensures, wp_bind, wp_load, offerTable_read]
    cases found : ledger.offers.lookup ⟨frame.sourceID, frame.offerID⟩ with
    | none =>
        intro value impossible
        cases impossible
    | some offer =>
        simp only [wp_bind, wp_loadHeader]
        have released : Ensures
            (ManageOfferOpFrame.takeOldOffer.releaseFrom frame ledger.header offer) ledger
            fun _ after => Follows [] 0 ledger after ∧ KeepsOffers ledger after := by
          unfold ManageOfferOpFrame.takeOldOffer.releaseFrom
          split
          · exact acquireOrReleaseLiabilities_follows frame.sourceID offer false
          · exact ⟨Follows.refl ledger, KeepsOffers.refl ledger⟩
        apply Ensures.mono released
        rintro _ middle ⟨follows, keeps⟩
        have still : middle.offers.lookup ⟨frame.sourceID, frame.offerID⟩ = some offer := by
          rw [keeps.offers]
          exact found
        simp only [wp_erase, offerTable_read, still, offerTable_write, wp_pure]
        rintro _ ⟨⟩
        exact (follows.trans (follows_eraseOffer still)).congr (fun _ => rfl) (by simp)
  · exact Succeeds.ok (Follows.refl ledger)

/-- The movements of an offer operation: its claims, and their totals at its source. -/
def offerMovements (frame : ManageOfferOpFrame) (claims : List ClaimOfferAtom) : List Movement :=
  claimMovements claims ++
    [⟨frame.sourceID, frame.wheat, (claims.map ClaimOfferAtom.amountSold).sum⟩,
     ⟨frame.sourceID, frame.sheep, -(claims.map ClaimOfferAtom.amountBought).sum⟩]

def OfPair (frame : ManageOfferOpFrame) (claims : List ClaimOfferAtom) : Prop :=
  ∀ claim ∈ claims, claim.assetSold = frame.wheat ∧ claim.assetBought = frame.sheep

theorem sum_map_nonneg (claims : List ClaimOfferAtom) (amount : ClaimOfferAtom → Int)
    (nonneg : ∀ claim ∈ claims, 0 ≤ amount claim) : 0 ≤ (claims.map amount).sum := by
  apply List.sum_nonneg
  intro value member
  obtain ⟨claim, claimed, rfl⟩ := List.mem_map.mp member
  exact nonneg claim claimed

theorem claims_without_wheat (claims : List ClaimOfferAtom)
    (amounts : ∀ claim ∈ claims, 0 ≤ claim.amountSold ∧ 0 ≤ claim.amountBought ∧
      (claim.amountSold = 0 ↔ claim.amountBought = 0))
    (nothing : (claims.map ClaimOfferAtom.amountSold).sum ≤ 0) :
    (claims.map ClaimOfferAtom.amountSold).sum = 0 ∧
      (claims.map ClaimOfferAtom.amountBought).sum = 0 := by
  induction claims with
  | nil => exact ⟨rfl, rfl⟩
  | cons head tail ih =>
      have headAmounts := amounts head List.mem_cons_self
      have tailAmounts := fun claim member => amounts claim (List.mem_cons_of_mem head member)
      have tailNonneg := sum_map_nonneg tail ClaimOfferAtom.amountSold
        (fun claim member => (tailAmounts claim member).1)
      simp only [List.map_cons, List.sum_cons] at nothing ⊢
      have tailZero := ih tailAmounts (by omega)
      have headZero : head.amountSold = 0 := by omega
      have headBought := headAmounts.2.2.mp headZero
      omega

theorem settleSource_follows (frame : ManageOfferOpFrame) (converted : Converted)
    (claimed : ∀ claim ∈ converted.offerTrail, 0 ≤ claim.amountSold ∧ 0 ≤ claim.amountBought ∧
      (claim.amountSold = 0 ↔ claim.amountBought = 0))
    (sheep : converted.sheepSend = (converted.offerTrail.map ClaimOfferAtom.amountBought).sum)
    (wheat : converted.wheatReceived = (converted.offerTrail.map ClaimOfferAtom.amountSold).sum) :
    Ensures (frame.settleSource converted) ledger fun _ after =>
      Follows [⟨frame.sourceID, frame.wheat, converted.wheatReceived⟩,
        ⟨frame.sourceID, frame.sheep, -converted.sheepSend⟩] 0 ledger after := by
  unfold ManageOfferOpFrame.settleSource
  split
  · apply Ensures.bind (orThrow_ensures (addBalance_follows frame.sourceID frame.wheat
      converted.wheatReceived))
    intro _ middle ⟨received, _⟩
    apply Ensures.mono (orThrow_ensures (addBalance_follows frame.sourceID frame.sheep
      (-converted.sheepSend)))
    intro _ after ⟨sent, _⟩
    exact (received.trans sent).congr (fun _ => rfl) (fun _ => rfl)
  · rename_i nothing
    have zero := claims_without_wheat converted.offerTrail claimed (by omega)
    apply Ensures.pure
    apply (Follows.refl ledger).congr
    · intro asset
      simp [Movement.stored, wheat, sheep, zero.1, zero.2]
    · intro accountID
      rfl

theorem amountLeft_reads (frame : ManageOfferOpFrame) (maxSheepSend : Int) (sheepStays : Bool)
    (converted : Converted) :
    Ensures (frame.amountLeft maxSheepSend sheepStays converted) ledger fun _ after =>
      after = ledger := by
  unfold ManageOfferOpFrame.amountLeft
  simp only [Ensures, wp_bind, wp_loadHeader, wp_ite]
  refine ⟨fun _ => ⟨fun _ => ?_, fun _ => rfl⟩, fun _ => rfl⟩
  apply Ensures.mono (tradeLimits_reads frame.sourceID frame.sheep frame.wheat)
  rintro limits _ rfl
  exact computed_reads _

theorem crossBook_follows (frame : ManageOfferOpFrame) (book : OrderBook) (passive : Bool)
    (maxSheepSend maxWheatReceive : Int) :
    Succeeds (frame.crossBook book passive maxSheepSend maxWheatReceive) ledger
      fun traded after => Follows (offerMovements frame traded.2) 0 ledger after ∧
        OfPair frame traded.2 := by
  unfold ManageOfferOpFrame.crossBook
  simp only [Succeeds, Ensures, wp_bind, wp_loadHeader]
  apply Ensures.mono (convertWithOffers_underway _ maxSheepSend maxWheatReceive)
  intro converted middle underway
  apply Ensures.mono (computed_reads _)
  rintro _ _ rfl
  cases frame.sheepStays converted with
  | error code =>
      intro value impossible
      cases impossible
  | ok sheepStays =>
      simp only [wp_bind]
      apply Ensures.mono (settleSource_follows frame converted underway.claimed.amounts
        underway.claimed.sheep underway.claimed.wheat)
      intro _ settled settles
      apply Ensures.mono (amountLeft_reads frame maxSheepSend sheepStays converted)
      rintro amount _ rfl
      rintro _ ⟨⟩
      constructor
      · have all := underway.follows.trans settles
        rw [underway.claimed.sheep, underway.claimed.wheat] at all
        exact all.congr (fun _ => rfl) (fun _ => rfl)
      · exact underway.claimed.assets

theorem tradeOffer_follows (frame : ManageOfferOpFrame) (book : OrderBook)
    (creatingNewOffer passive : Bool) :
    Succeeds (frame.tradeOffer book creatingNewOffer passive) ledger fun traded after =>
      Follows (offerMovements frame traded.2) 0 ledger after ∧ OfPair frame traded.2 := by
  unfold ManageOfferOpFrame.tradeOffer
  split
  · apply Succeeds.ok
    constructor
    · apply (Follows.refl ledger).congr
      · intro asset
        simp [offerMovements, claimMovements, Movement.stored]
      · intro accountID
        rfl
    · intro claim absent
      cases absent
  · apply Succeeds.andThen (Succeeds.rolledBack _)
    rintro parameters _ rfl
    split
    · exact Succeeds.error
    · exact crossBook_follows frame book passive _ _

theorem generateID_follows :
    Ensures generateID ledger fun _ after =>
      Follows [] 0 ledger after ∧ KeepsOffers ledger after := by
  unfold generateID
  simp only [Ensures, wp_bind, wp_get, wp_set, wp_pure]
  refine ⟨?_, ⟨rfl, rfl⟩⟩
  constructor
  · rfl
  · intro _ accountID
    exact le_rfl
  · intro asset
    cases asset <;> simp [holdings]
  · intro accountID
    simp [surplus, ownedEntries]
  · intro fit
    exact fit

theorem storeOffer_follows (key : OfferKey) (offer : OfferEntry) :
    Ensures (ManageOfferOpFrame.storeOffer key offer) ledger fun _ after =>
      Follows [] (only key.sellerID (-1)) ledger after := by
  unfold ManageOfferOpFrame.storeOffer
  simp only [Ensures, wp_bind, wp_create, offerTable_read, offerTable_write]
  cases absent : ledger.offers.lookup key with
  | some old => trivial
  | none =>
      simp only [wp_loadHeader, wp_ite]
      have created : Follows [] (only key.sellerID (-1)) ledger
          { ledger with offers := ledger.offers.insert key offer } := follows_createOffer absent
      constructor
      · intro _
        apply Ensures.mono (acquireOrReleaseLiabilities_follows key.sellerID offer true)
        rintro _ after ⟨acquired, _⟩
        exact (created.trans acquired).congr (fun _ => rfl) (by simp)
      · intro _
        exact created

theorem placeOffer_follows (frame : ManageOfferOpFrame) (creatingNewOffer : Bool)
    (flags : BitVec 32) (amount : Int) :
    Succeeds (frame.placeOffer creatingNewOffer flags amount) ledger fun _ after =>
      Follows [] (if creatingNewOffer then 0 else only frame.sourceID (-1)) ledger after := by
  unfold ManageOfferOpFrame.placeOffer
  dsimp only
  split
  · cases creatingNewOffer with
    | true =>
        apply Succeeds.andThen (addOfferEntry_follows frame)
        intro _ counted countedFollows
        apply Ensures.bind generateID_follows
        rintro offerID named ⟨namedFollows, _⟩
        apply Ensures.bind (storeOffer_follows _ _)
        intro _ after stored
        apply Succeeds.ok
        apply (countedFollows.trans (namedFollows.trans stored)).congr
        · intro asset
          rfl
        · intro accountID
          simp only [only, Pi.add_apply, Pi.zero_apply, if_true]
          split <;> omega
    | false =>
        apply Ensures.bind (storeOffer_follows _ _)
        intro _ after stored
        exact Succeeds.ok stored
  · cases creatingNewOffer with
    | true => exact Succeeds.ok (Follows.refl ledger)
    | false =>
        apply Ensures.bind (dropEntry_follows frame.sourceID)
        rintro _ after ⟨_, dropped⟩
        exact Succeeds.ok dropped

theorem ManageOfferOpFrame.doApply_follows (frame : ManageOfferOpFrame) (book : OrderBook) :
    Succeeds (frame.doApply book) ledger fun success after =>
      ∃ result, success = .manageOffer result ∧
        Follows (offerMovements frame result.offersClaimed) 0 ledger after ∧
        OfPair frame result.offersClaimed := by
  unfold ManageOfferOpFrame.doApply
  apply Succeeds.nested
  apply Succeeds.andThen (Succeeds.rolledBack _)
  rintro _ start rfl
  apply Succeeds.andThen (takeOldOffer_follows frame)
  rintro ⟨creatingNewOffer, flags⟩ taken takenFollows
  apply Succeeds.andThen (tradeOffer_follows frame book creatingNewOffer _)
  rintro ⟨amount, claims⟩ traded ⟨tradedFollows, pair⟩
  apply Succeeds.andThen (placeOffer_follows frame creatingNewOffer flags amount)
  intro effect after placedFollows
  apply Succeeds.ok
  refine ⟨_, rfl, ?_, pair⟩
  apply (takenFollows.trans (tradedFollows.trans placedFollows)).congr
  · intro asset
    simp
  · intro accountID
    cases creatingNewOffer with
    | true => rfl
    | false =>
        simp only [only, Pi.add_apply, Pi.zero_apply, Bool.false_eq_true, if_false]
        split <;> omega

/-! ### Payments -/

namespace PathPaymentOp

theorem addToLine_follows (accountID : AccountID) (asset : Asset) (delta : Int)
    (noTrust notAuthorized full : PathPaymentResultCode) :
    Succeeds (addToLine accountID asset delta noTrust notAuthorized full) ledger fun _ after =>
      Follows [⟨accountID, asset, delta⟩] 0 ledger after := by
  unfold addToLine
  apply Ensures.bind (loadTrustLine_reads accountID asset)
  rintro line _ rfl
  cases line with
  | none => exact Succeeds.error
  | some line =>
      dsimp only
      split
      · exact Succeeds.error
      · apply Ensures.bind (addBalance_follows accountID asset delta)
        intro ok after result
        cases ok with
        | false => exact Succeeds.error
        | true => exact Succeeds.ok result.1

theorem checkIssuer_reads (asset : Asset) :
    Succeeds (checkIssuer asset) ledger fun _ after => after = ledger := by
  unfold checkIssuer
  cases asset.issuer? with
  | none => exact Succeeds.ok rfl
  | some issuerID =>
      simp only [Succeeds, Ensures, wp_bind, wp_load, wp_ite]
      exact ⟨fun _ => Succeeds.error, fun _ => Succeeds.ok rfl⟩

theorem checkIssuerUnlessBypassed_reads (op : PathPaymentOp) (asset : Asset) :
    Succeeds (op.checkIssuerUnlessBypassed asset) ledger fun _ after => after = ledger := by
  unfold checkIssuerUnlessBypassed
  split
  · exact Succeeds.ok rfl
  · exact checkIssuer_reads asset

theorem checkDestination_reads (op : PathPaymentOp) :
    Succeeds op.checkDestination ledger fun _ after => after = ledger := by
  unfold checkDestination
  split
  · exact Succeeds.ok rfl
  · simp only [Succeeds, Ensures, wp_bind, wp_load, wp_ite]
    exact ⟨fun _ => Succeeds.error, fun _ => Succeeds.ok rfl⟩

theorem creditDestination_follows (op : PathPaymentOp) :
    Succeeds op.creditDestination ledger fun _ after =>
      Follows [⟨op.destination, op.destAsset, op.destAmount⟩] 0 ledger after := by
  unfold creditDestination
  split
  · rename_i native
    simp only [Succeeds, Ensures, wp_bind, wp_loadHeader]
    apply Ensures.mono (addBalance_follows op.destination .native op.destAmount)
    intro ok after result
    cases ok with
    | false => exact Succeeds.error
    | true =>
        rw [native]
        exact Succeeds.ok result.1
  · apply Succeeds.andThen (op.checkIssuerUnlessBypassed_reads _)
    rintro _ _ rfl
    exact addToLine_follows _ _ _ _ _ _

/-- The state of a path payment on its way back from the destination: the claims so far
turn what the destination gets into what the leg still has to provide. -/
structure Leg.Underway (leg : Leg) (op : PathPaymentOp) (start current : Ledger) : Prop where
  follows : Follows (claimMovements leg.offers) 0 start current
  net : ∀ asset, netSum asset (claimMovements leg.offers) =
    (if leg.curB = asset then leg.curBReceived else 0) -
    (if op.destAsset = asset then op.destAmount else 0)

theorem convertLeg_underway (op : PathPaymentOp) (sourceID : AccountID) (book : OrderBook)
    (start : Ledger) (leg : Leg) (curA : Asset) (underway : leg.Underway op start ledger) :
    Succeeds (convertLeg sourceID book leg curA) ledger fun next after =>
      next.curB = curA ∧ next.Underway op start after := by
  unfold convertLeg
  apply Succeeds.andThen (checkIssuer_reads curA)
  rintro _ _ rfl
  simp only [Succeeds, Ensures, wp_bind, wp_loadHeader]
  apply Ensures.mono (convertWithOffers_underway _ INT64_MAX leg.curBReceived)
  intro converted after crossing
  apply Ensures.mono (computed_reads _)
  rintro _ _ rfl
  intro next success
  have nextLeg : leg.next curA converted = .ok next := success
  unfold Leg.next at nextLeg
  cases result : converted.result with
  | eFilterStop crossSelf =>
      simp only [result] at nextLeg
      cases nextLeg
  | eCrossedTooMany =>
      simp only [result] at nextLeg
      cases nextLeg
  | ePartial =>
      simp only [result] at nextLeg
      cases nextLeg
  | eOK =>
      simp only [result] at nextLeg
      split at nextLeg
      · rename_i exactly
        cases nextLeg
        refine ⟨rfl, ?_, ?_⟩
        · apply (underway.follows.trans crossing.follows).congr
          · intro asset
            simp only [storedSum_append, claimMovements_append]
            omega
          · intro accountID
            rfl
        · intro asset
          have hop := netSum_claims asset curA leg.curB converted.offerTrail
            crossing.claimed.assets
          rw [← crossing.claimed.sheep, ← crossing.claimed.wheat, ← exactly] at hop
          simp only [claimMovements_append, netSum_append, hop, underway.net]
          omega
      · cases nextLeg

theorem convertPath_underway (op : PathPaymentOp) (sourceID : AccountID) (book : OrderBook)
    (start : Ledger) (path : List Asset) (leg : Leg) (underway : leg.Underway op start ledger) :
    Succeeds (convertPath sourceID book path leg) ledger fun last after =>
      last.curB = path.getLast?.getD leg.curB ∧ last.Underway op start after := by
  induction path generalizing leg ledger with
  | nil => exact Succeeds.ok ⟨rfl, underway⟩
  | cons curA rest ih =>
      have ends : ∀ fallback : Asset, (curA :: rest).getLast?.getD fallback =
          rest.getLast?.getD curA := by
        intro fallback
        simp [List.getLast?_cons]
      unfold convertPath
      split
      · rename_i same
        rw [ends, same]
        exact ih leg underway
      · rw [ends]
        apply Succeeds.andThen (convertLeg_underway op sourceID book start leg curA underway)
        rintro next middle ⟨rfl, reached⟩
        exact ih next reached

theorem debitNative_follows (sourceID : AccountID) (amount : Int) :
    Succeeds (debitNative sourceID amount) ledger fun _ after =>
      Follows [⟨sourceID, .native, -amount⟩] 0 ledger after := by
  unfold debitNative
  simp only [Succeeds, Ensures, wp_bind, wp_loadHeader, wp_load, accountTable_read]
  cases ledger.accounts.lookup sourceID with
  | none => exact Succeeds.error
  | some source =>
      simp only [wp_bind, wp_computed]
      cases getAvailableBalanceOfAccount ledger.header source with
      | error fault => trivial
      | ok available =>
          simp only [wp_ite]
          refine ⟨fun _ => Succeeds.error, fun _ => ?_⟩
          simp only [wp_bind]
          apply Ensures.mono (addBalance_follows sourceID .native (-amount))
          intro ok after result
          cases ok with
          | false => trivial
          | true => exact Succeeds.ok result.1

theorem debitSource_follows (op : PathPaymentOp) (sourceID : AccountID) (leg : Leg) :
    Succeeds (op.debitSource sourceID leg) ledger fun _ after =>
      Follows [⟨sourceID, leg.curB, -leg.curBReceived⟩] 0 ledger after := by
  unfold debitSource
  split
  · exact Succeeds.error
  · split
    · rename_i native
      rw [native]
      exact debitNative_follows sourceID leg.curBReceived
    · apply Succeeds.andThen (op.checkIssuerUnlessBypassed_reads _)
      rintro _ _ rfl
      exact addToLine_follows _ _ _ _ _ _

def movements (op : PathPaymentOp) (sourceID : AccountID) (success : PathPaymentSuccess) :
    List Movement :=
  ⟨op.destination, op.destAsset, op.destAmount⟩ ::
    (claimMovements success.offers ++ [⟨sourceID, op.sendAsset, -success.sent⟩])

theorem doApply_follows (op : PathPaymentOp) (sourceID : AccountID) (book : OrderBook) :
    Succeeds (op.doApply sourceID book) ledger fun success after =>
      Follows (op.movements sourceID success) 0 ledger after ∧
      ∀ asset, netSum asset (op.movements sourceID success) = 0 := by
  unfold doApply
  apply Succeeds.andThen op.checkDestination_reads
  rintro _ _ rfl
  apply Succeeds.andThen op.creditDestination_follows
  intro _ credited creditedFollows
  have initial : op.lastLeg.Underway op credited credited :=
    ⟨Follows.refl credited, by
      intro asset
      exact (Int.sub_self _).symm⟩
  apply Succeeds.andThen
    (convertPath_underway op sourceID book credited (op.sendAsset :: op.path).reverse _ initial)
  rintro leg converted ⟨sends, underway⟩
  simp only [List.reverse_cons, List.getLast?_append, List.getLast?_singleton, Option.some_or,
    Option.getD_some] at sends
  apply Succeeds.andThen (op.debitSource_follows sourceID leg)
  intro _ after debited
  apply Succeeds.ok
  constructor
  · apply (creditedFollows.trans (underway.follows.trans debited)).congr
    · intro asset
      simp [movements, sends]
    · intro accountID
      rfl
  · intro asset
    simp only [movements, netSum_cons, netSum_append, netSum_nil, underway.net, sends]
    split_ifs <;> omega

theorem doApply_direct (op : PathPaymentOp) (sourceID : AccountID) (book : OrderBook)
    (noPath : op.path = []) (same : op.sendAsset = op.destAsset) :
    Succeeds (op.doApply sourceID book) ledger fun success _ =>
      success.offers = [] ∧ success.sent = op.destAmount := by
  unfold doApply
  apply Succeeds.andThen op.checkDestination_reads
  intro _ _ _
  apply Succeeds.andThen op.creditDestination_follows
  intro _ converted _
  have skipped : convertPath sourceID book (op.sendAsset :: op.path).reverse op.lastLeg =
      return .ok op.lastLeg := by
    simp [noPath, same, convertPath, lastLeg]
  rw [skipped]
  have unchanged : Succeeds (return .ok op.lastLeg) converted fun leg _ => leg = op.lastLeg :=
    Succeeds.ok rfl
  apply Succeeds.andThen unchanged
  rintro _ _ rfl
  apply Succeeds.andThen (op.debitSource_follows sourceID _)
  intro _ _ _
  exact Succeeds.ok ⟨rfl, rfl⟩

end PathPaymentOp

open PathPaymentOp in
theorem PaymentOp.doApply_follows (op : PaymentOp) (sourceID : AccountID) (book : OrderBook)
    (notInstant : ¬ (op.destination = sourceID ∧ op.asset = .native)) :
    Succeeds (op.doApply sourceID book) ledger fun _ after =>
      Follows [⟨op.destination, op.asset, op.amount⟩, ⟨sourceID, op.asset, -op.amount⟩] 0
        ledger after := by
  unfold PaymentOp.doApply PaymentOp.applyPathPayment
  rw [if_neg notInstant]
  cases op.pathPayment.doCheckValid with
  | error code =>
      simp only [Succeeds, Ensures, wp_bind, wp_pure]
      apply Ensures.mono (computed_reads _)
      intro _ _ _
      exact Succeeds.error
  | ok valid =>
      have both := Ensures.and (s := ledger) (op.pathPayment.doApply_follows sourceID book)
        (op.pathPayment.doApply_direct sourceID book rfl rfl)
      apply Ensures.bind both
      rintro result after ⟨follows, direct⟩
      cases result with
      | error code =>
          apply Ensures.bind (computed_reads _)
          intro _ _ _
          exact Succeeds.error
      | ok success =>
          apply Succeeds.ok
          obtain ⟨noOffers, sent⟩ := direct success rfl
          apply (follows success rfl).1.congr
          · intro asset
            simp [movements, PaymentOp.pathPayment, noOffers, sent, claimMovements]
          · intro accountID
            rfl

end ViiCore.Transactions
