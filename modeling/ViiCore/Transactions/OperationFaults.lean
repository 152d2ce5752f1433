import ViiCore.Transactions.Faults

/-!
Operations, removals of signers and upgrades do not end with "invalid account state" on a
ledger in which no count is too low.
-/

namespace ViiCore.Transactions

open ViiCore.Ledger ViiCore.FiniteMap ViiCore.Execution

variable {ledger : Ledger}

theorem Covered.signers_le (covered : Covered ledger) {accountID : AccountID}
    {account : AccountEntry} (found : ledger.accounts.lookup accountID = some account) :
    account.signers.length ≤ account.numSubEntries := by
  have enough := covered accountID
  have owned := ownedEntries_nonneg accountID ledger
  simp only [surplus, found, Option.map_some, Option.getD_some] at enough
  omega

/-! ### Payments -/

namespace PathPaymentOp

@[grind ←] theorem checkIssuer_avoids (asset : Asset) : Avoids (checkIssuer asset) := by
  unfold checkIssuer
  grind

@[grind ←] theorem checkIssuerUnlessBypassed_avoids (op : PathPaymentOp) (asset : Asset) :
    Avoids (op.checkIssuerUnlessBypassed asset) := by
  unfold checkIssuerUnlessBypassed
  grind

@[grind ←] theorem checkDestination_avoids (op : PathPaymentOp) : Avoids op.checkDestination := by
  unfold checkDestination
  grind

@[grind ←] theorem addToLine_avoids (accountID : AccountID) (asset : Asset) (delta : Int)
    (noTrust notAuthorized full : PathPaymentResultCode) :
    Avoids (addToLine accountID asset delta noTrust notAuthorized full) := by
  unfold addToLine
  grind

@[grind ←] theorem creditDestination_avoids (op : PathPaymentOp) : Avoids op.creditDestination := by
  unfold creditDestination
  grind

theorem filter_spares (sourceID : AccountID) (key : OfferKey) (offer : OfferEntry) :
    Spares (filter sourceID key offer) := by
  unfold filter
  grind

@[grind ←] theorem debitNative_avoids (sourceID : AccountID) (amount : Int) :
    Avoids (debitNative sourceID amount) := by
  unfold debitNative
  apply Avoids.bind Avoids.loadHeader
  intro header
  apply Avoids.bind (Avoids.load accountTable sourceID)
  intro account
  cases account with
  | none => exact Avoids.pure _
  | some source =>
      apply Avoids.bind (Avoids.computed (getAvailableBalanceOfAccount_spares header source))
      grind

@[grind ←] theorem debitSource_avoids (op : PathPaymentOp) (sourceID : AccountID) (leg : Leg) :
    Avoids (op.debitSource sourceID leg) := by
  unfold debitSource
  grind

theorem convertLeg_safe (covered : Covered ledger) (sourceID : AccountID) (book : OrderBook)
    (leg : Leg) (curA : Asset) : Safe (convertLeg sourceID book leg curA) ledger := by
  unfold convertLeg
  apply Safe.andThen (checkIssuer_avoids curA ledger) (checkIssuer_reads curA)
  rintro _ _ rfl
  apply Safe.header
  dsimp only
  apply Safe.followed (convertWithOffers_safe covered _ (filter_spares sourceID) _ _)
  grind

theorem convertPath_safe (op : PathPaymentOp) (sourceID : AccountID) (book : OrderBook)
    (start : Ledger) (coveredStart : Covered start) (path : List Asset) (leg : Leg)
    (underway : leg.Underway op start ledger) :
    Safe (convertPath sourceID book path leg) ledger := by
  induction path generalizing leg ledger with
  | nil => trivial
  | cons curA rest ih =>
      unfold convertPath
      split
      · exact ih leg underway
      · have covered : Covered ledger := coveredStart.follow underway.follows (fun _ => le_rfl)
        apply Safe.andThen (convertLeg_safe covered sourceID book leg curA)
          (convertLeg_underway op sourceID book start leg curA underway)
        rintro next after ⟨_, reached⟩
        exact ih next reached

theorem doApply_safe (covered : Covered ledger) (op : PathPaymentOp) (sourceID : AccountID)
    (book : OrderBook) : Safe (op.doApply sourceID book) ledger := by
  unfold doApply
  apply Safe.andThen (op.checkDestination_avoids ledger) op.checkDestination_reads
  rintro _ _ rfl
  apply Safe.andThen (op.creditDestination_avoids _) op.creditDestination_follows
  intro _ credited creditedFollows
  have coveredCredited : Covered credited := covered.follow creditedFollows (fun _ => le_rfl)
  have initial : op.lastLeg.Underway op credited credited :=
    ⟨Follows.refl credited, by
      intro asset
      exact (Int.sub_self _).symm⟩
  apply Safe.andThen
    (convertPath_safe op sourceID book credited coveredCredited _ _ initial)
    (convertPath_underway op sourceID book credited _ _ initial)
  intro leg converted _
  have rest : Avoids (andThen (op.debitSource sourceID leg) fun _ =>
      return .ok
        { offers := leg.offers, sent := leg.curBReceived,
          last := { destination := op.destination, asset := op.destAsset,
                    amount := op.destAmount } : PathPaymentSuccess }) := by
    grind
  exact rest converted

end PathPaymentOp

theorem PaymentOp.translate_spares (code : OperationFailure) : Spares (translate code) := by
  unfold translate
  grind

theorem PaymentOp.doApply_safe (covered : Covered ledger) (op : PaymentOp) (sourceID : AccountID)
    (book : OrderBook) : Safe (op.doApply sourceID book) ledger := by
  unfold PaymentOp.doApply
  split
  · trivial
  · have inner : Safe (op.applyPathPayment sourceID book) ledger := by
      unfold applyPathPayment
      split
      · trivial
      · exact op.pathPayment.doApply_safe covered sourceID book
    apply Safe.followed inner
    intro result
    cases result with
    | error code => exact Avoids.bind (Avoids.computed (translate_spares code)) (by grind)
    | ok success => exact Avoids.pure _

/-! ### Accounts and their options -/

@[grind ←] theorem addSubEntry_avoids (accountID : AccountID) (lowReserve : OperationFailure) :
    Avoids (addSubEntry accountID lowReserve) := by
  unfold addSubEntry
  grind

theorem CreateAccountOp.doApply_avoids (op : CreateAccountOp) (sourceID : AccountID) :
    Avoids (op.doApply sourceID) := by
  unfold CreateAccountOp.doApply
  apply Avoids.bind (Avoids.load accountTable op.destination)
  intro account
  cases account with
  | some existing => exact Avoids.pure _
  | none =>
      apply Avoids.bind Avoids.loadHeader
      intro header
      split
      · exact Avoids.pure _
      · apply Avoids.bind (Avoids.current accountTable sourceID)
        intro source
        apply Avoids.bind (Avoids.computed (getAvailableBalanceOfAccount_spares header source))
        grind

theorem AccountMerge.doApply_avoids (sourceID destination : AccountID) :
    Avoids (AccountMerge.doApply sourceID destination) := by
  unfold AccountMerge.doApply
  grind

theorem BumpSequence.doApply_avoids (sourceID : AccountID) (bumpTo : SequenceNumber) :
    Avoids (BumpSequence.doApply sourceID bumpTo) := by
  unfold BumpSequence.doApply
  grind

namespace SetOptionsOp

@[grind ←] theorem editSource_avoids (sourceID : AccountID)
    (edit : AccountEntry → Except OperationFailure AccountEntry) :
    Avoids (editSource sourceID edit) := by
  unfold editSource
  grind

@[grind ←] theorem setInflationDest_avoids (op : SetOptionsOp) (sourceID : AccountID) :
    Avoids (op.setInflationDest sourceID) := by
  unfold setInflationDest
  grind

@[grind ←] theorem addSigner_avoids (sourceID : AccountID) (signer : Signer) :
    Avoids (addSigner sourceID signer) := by
  unfold addSigner
  grind

theorem dropEntries_spares {header : LedgerHeader} (removed : List Signer)
    {account : AccountEntry} (enough : removed.length ≤ account.numSubEntries) :
    Spares (removed.foldlM
      (fun account _ => return (← addNumEntries header account (-1)).2) account) := by
  induction removed generalizing account with
  | nil => exact Spares.pure _
  | cons head tail ih =>
      rw [List.length_cons] at enough
      rw [List.foldlM_cons]
      cases dropped : addNumEntries header account (-1) with
      | error fault =>
          have spares : Spares (addNumEntries header account (-1)) :=
            addNumEntries_spares header account (by omega)
          rw [dropped] at spares
          intro same
          cases same
          exact spares rfl
      | ok result =>
          obtain ⟨code, updated⟩ := result
          change Spares (tail.foldlM _ updated)
          apply ih
          rcases addNumEntries_ok dropped with ⟨-, entries, rfl, sum, -⟩ | ⟨-, -, impossible⟩
          · simp only
            omega
          · omega

theorem removeSigners_spares {header : LedgerHeader} {key : SignerKey} {account : AccountEntry}
    (covered : account.signers.length ≤ account.numSubEntries) :
    Spares (removeSigners header key account) := by
  have fewer := List.length_filter_le (fun old : Signer => decide (old.key = key)) account.signers
  unfold removeSigners
  dsimp only
  apply Spares.bind (dropEntries_spares _ (by omega))
  intro updated
  exact Spares.pure _

theorem removeSigner_safe (covered : Covered ledger) (sourceID : AccountID) (key : SignerKey) :
    Safe (removeSigner sourceID key) ledger := by
  unfold removeSigner
  simp only [Safe, wp_bind, wp_loadHeader, wp_current, accountTable_read]
  cases found : ledger.accounts.lookup sourceID with
  | none => simp
  | some account =>
      have removed : Safe (computed (removeSigners ledger.header key account)) ledger :=
        Avoids.computed (removeSigners_spares (covered.signers_le found)) ledger
      apply wp_mono removed
      · intro updated after _
        trivial
      · intro fault after different
        exact different

theorem changeSigner_safe (covered : Covered ledger) (op : SetOptionsOp) (sourceID : AccountID) :
    Safe (op.changeSigner sourceID) ledger := by
  unfold changeSigner
  cases op.signer with
  | none => trivial
  | some signer =>
      have changed : Safe
          (if signer.weight ≠ 0 then addSigner sourceID signer
            else removeSigner sourceID signer.key) ledger := by
        split
        · exact addSigner_avoids sourceID signer ledger
        · exact removeSigner_safe covered sourceID signer.key
      unfold Transactions.andThen
      apply Safe.followed changed
      grind

theorem doApply_safe (covered : Covered ledger) (op : SetOptionsOp) (sourceID : AccountID) :
    Safe (op.doApply sourceID) ledger := by
  unfold doApply
  apply Safe.andThen (op.setInflationDest_avoids sourceID ledger)
    (op.setInflationDest_follows sourceID)
  intro _ first early
  apply Safe.andThen (editSource_avoids sourceID _ first)
    (editSource_follows sourceID _ (changeFlags_retains _ _))
  intro _ second cleared
  apply Safe.andThen (editSource_avoids sourceID _ second)
    (editSource_follows sourceID _ (changeFlags_retains _ _))
  intro _ third set
  have domain : Succeeds (editSource sourceID fun account => return op.setDomainAndThresholds account)
      third fun _ after => Follows [] 0 third after := by
    apply editSource_follows
    rintro account _ ⟨⟩
    exact ⟨rfl, le_rfl, rfl, le_rfl⟩
  apply Safe.andThen (editSource_avoids sourceID _ third) domain
  intro _ fourth late
  have still : Covered fourth :=
    covered.follow (early.trans (cleared.trans (set.trans late))) (fun _ => le_rfl)
  apply Safe.andThen (op.changeSigner_safe still sourceID) (op.changeSigner_follows sourceID)
  intro _ _ _
  trivial

end SetOptionsOp

/-! ### Trust lines and data -/

namespace ChangeTrustOp

@[grind ←] theorem createLine_avoids (op : ChangeTrustOp) (sourceID issuerID : AccountID) :
    Avoids (op.createLine sourceID issuerID) := by
  unfold createLine
  grind

theorem changeLine_safe (covered : Covered ledger) (op : ChangeTrustOp)
    (sourceID issuerID : AccountID) (line : TrustLineEntry)
    (issued : op.line.issuer? = some issuerID) (different : issuerID ≠ sourceID) :
    Safe (op.changeLine sourceID issuerID line) ledger := by
  unfold changeLine
  apply Safe.header
  apply Safe.read (by grind) (computed_reads _)
  intro minimum
  split
  · trivial
  · split
    · apply Safe.erase
      intro old found
      have credit : (op.key sourceID).asset.issuer? ≠ some (op.key sourceID).accountID := by
        simp [key, issued, different]
      have notNative : (op.key sourceID).asset ≠ .native := by
        intro native
        have lineNative : op.line = .native := native
        rw [lineNative] at issued
        cases issued
      exact (covered.spare (follows_eraseTrustLine found credit notNative)).followed (by grind)
    · have rest : Avoids (do
          if (← accountTable.load issuerID).isNone then return .error (.changeTrust .NO_ISSUER)
          else
            trustLineTable.store (op.key sourceID) { line with limit := op.limit }
            return .ok .changeTrust : Apply OperationResult) := by
        grind
      exact rest ledger

theorem doApply_safe (covered : Covered ledger) (op : ChangeTrustOp) (sourceID : AccountID) :
    Safe (op.doApply sourceID) ledger := by
  unfold doApply getIssuer
  cases issued : op.line.issuer? with
  | none => exact Avoids.throw (by simp) ledger
  | some issuerID =>
      change Safe (if issuerID = sourceID then _ else _) ledger
      split
      · trivial
      · rename_i different
        apply Safe.load
        cases (trustLineTable.read ledger).lookup (op.key sourceID) with
        | some line => exact op.changeLine_safe covered sourceID issuerID line issued different
        | none => exact op.createLine_avoids sourceID issuerID ledger

end ChangeTrustOp

theorem ManageDataOp.doApply_safe (covered : Covered ledger) (op : ManageDataOp)
    (sourceID : AccountID) : Safe (op.doApply sourceID) ledger := by
  unfold ManageDataOp.doApply
  apply Safe.load
  cases op.dataValue with
  | some value =>
      have written : ∀ data : Option (List UInt8), Avoids (
          if data.isNone then
            andThen (addSubEntry sourceID (.manageData .LOW_RESERVE)) fun _ => do
              dataTable.create (op.key sourceID) value
              return .ok .manageData
          else do
            dataTable.store (op.key sourceID) value
            return .ok .manageData : Apply OperationResult) := by
        grind
      exact written _ ledger
  | none =>
      dsimp only
      split
      · trivial
      · apply Safe.erase
        intro old found
        exact (covered.spare (follows_eraseData found)).followed (by grind)

namespace AllowTrustOp

@[grind ←] theorem checkSource_avoids (op : AllowTrustOp) (sourceID : AccountID) :
    Avoids (op.checkSource sourceID) := by
  unfold checkSource
  grind

@[grind ←] theorem authorizeLine_avoids (op : AllowTrustOp) (sourceID : AccountID) :
    Avoids (op.authorizeLine sourceID) := by
  unfold authorizeLine
  grind

theorem removeOffer_safe (covered : Covered ledger) (op : AllowTrustOp) (sourceID : AccountID)
    (offer : OfferKey × OfferEntry) (present : ledger.offers.lookup offer.1 = some offer.2) :
    Safe (op.removeOffer sourceID offer) ledger := by
  unfold removeOffer
  split
  · exact Avoids.throw (by simp) ledger
  · split
    · exact Avoids.throw (by simp) ledger
    · rename_i owned _
      apply Safe.bind (releaseLiabilities_avoids op.trustor offer.2 ledger)
        (acquireOrReleaseLiabilities_follows op.trustor offer.2 false)
      intro _ released ⟨releasedFollows, releasedKeeps⟩
      have dropped : Safe (addNumEntriesOf op.trustor (-1)) released := by
        apply dropEntry_safe
        have still : released.offers.lookup offer.1 = some offer.2 := by
          rw [releasedKeeps.offers]
          exact present
        have counted := one_le_count (fun key : OfferKey => key.sellerID = op.trustor) _ still
          (not_not.mp owned)
        have lines := count_nonneg (fun key : TrustLineKey => key.accountID = op.trustor)
          released.trustLines
        have data := count_nonneg (fun key : DataKey => key.accountID = op.trustor) released.data
        have enough := covered.follow releasedFollows (fun _ => le_rfl) op.trustor
        unfold ownedEntries
        omega
      apply Safe.followed dropped
      intro _
      exact Avoids.erase offerTable offer.1

theorem removeOffer_keeps (op : AllowTrustOp) (sourceID : AccountID)
    (offer : OfferKey × OfferEntry) :
    Ensures (op.removeOffer sourceID offer) ledger fun _ after =>
      after.offers = ledger.offers.erase offer.1 := by
  unfold removeOffer
  simp only [Ensures, wp_ite, wp_bind]
  refine ⟨fun _ => trivial, fun owned => ⟨fun _ => trivial, fun _ => ?_⟩⟩
  apply Ensures.mono (acquireOrReleaseLiabilities_follows op.trustor offer.2 false)
  rintro _ released ⟨_, releasedKeeps⟩
  apply Ensures.mono (dropEntry_follows op.trustor)
  rintro _ dropped ⟨droppedKeeps, _⟩
  simp only [wp_erase, offerTable_read, offerTable_write]
  cases dropped.offers.lookup offer.1 with
  | none => trivial
  | some entry => rw [droppedKeeps.offers, releasedKeeps.offers]

theorem removeEach_safe (covered : Covered ledger) (op : AllowTrustOp) (sourceID : AccountID)
    (offers : List (OfferKey × OfferEntry)) (distinct : (offers.map Prod.fst).Nodup)
    (present : ∀ offer ∈ offers, ledger.offers.lookup offer.1 = some offer.2) :
    Safe (offers.forM (op.removeOffer sourceID)) ledger := by
  induction offers generalizing ledger with
  | nil => trivial
  | cons offer rest ih =>
      rw [List.map_cons, List.nodup_cons] at distinct
      change Safe (op.removeOffer sourceID offer >>= fun _ => rest.forM _) ledger
      apply Safe.bind (op.removeOffer_safe covered sourceID offer (present offer List.mem_cons_self))
        ((op.removeOffer_follows sourceID offer).and (op.removeOffer_keeps sourceID offer))
      intro _ after ⟨follows, erased⟩
      apply ih (covered.follow follows fun _ => le_rfl) distinct.2
      intro other member
      rw [erased, AList.lookup_erase_ne]
      · exact present other (List.mem_cons_of_mem offer member)
      · intro same
        apply distinct.1
        rw [← same]
        exact List.mem_map_of_mem member

theorem removeOffers_safe (covered : Covered ledger) (op : AllowTrustOp) (sourceID : AccountID)
    (line : TrustLineEntry) : Safe (op.removeOffers sourceID line) ledger := by
  unfold removeOffers loadOffersByAccountAndAsset
  apply Safe.header
  split
  · change Safe (List.forM (List.filter _ (List.map _ ledger.offers.entries)) _) ledger
    apply op.removeEach_safe covered
    · have keys : (ledger.offers.entries.map fun entry => (entry.1, entry.2)).map Prod.fst =
          ledger.offers.keys := by
        rw [List.map_map]
        rfl
      have part := (List.filter_sublist (p := fun offer : OfferKey × OfferEntry =>
        decide (offer.1.sellerID = op.trustor ∧
          (offer.2.buying = op.ci sourceID ∨ offer.2.selling = op.ci sourceID)))
        (l := ledger.offers.entries.map fun entry => (entry.1, entry.2))).map Prod.fst
      rw [keys] at part
      exact part.nodup ledger.offers.keys_nodup
    · intro offer member
      obtain ⟨entry, listed, rfl⟩ := List.mem_map.mp (List.mem_of_mem_filter member)
      exact AList.mem_lookup_iff.mpr listed
  · trivial

theorem doApply_safe (covered : Covered ledger) (op : AllowTrustOp) (sourceID : AccountID) :
    Safe (op.doApply sourceID) ledger := by
  unfold doApply
  split
  · trivial
  · apply Safe.andThen (op.checkSource_avoids sourceID ledger) (op.checkSource_reads sourceID)
    rintro _ _ rfl
    apply Safe.load
    split
    · trivial
    · apply Safe.followed (op.removeOffers_safe covered sourceID _)
      grind

end AllowTrustOp

/-! ### Dispatch -/

theorem OperationBody.doApply_safe (covered : Covered ledger) (body : OperationBody)
    (sourceID : AccountID) (book : OrderBook) : Safe (body.doApply sourceID book) ledger := by
  cases body with
  | CREATE_ACCOUNT op => exact op.doApply_avoids sourceID ledger
  | PAYMENT op => exact op.doApply_safe covered sourceID book
  | PATH_PAYMENT op =>
      apply Safe.followed (op.doApply_safe covered sourceID book)
      grind
  | MANAGE_SELL_OFFER op =>
      exact ManageOfferOpFrame.doApply_safe _ covered (manageSellOfferFrame_spares _ _ _) book
  | CREATE_PASSIVE_SELL_OFFER op =>
      exact ManageOfferOpFrame.doApply_safe _ covered (manageSellOfferFrame_spares _ _ _) book
  | MANAGE_BUY_OFFER op =>
      exact ManageOfferOpFrame.doApply_safe _ covered (manageBuyOfferFrame_spares _ _) book
  | SET_OPTIONS op => exact op.doApply_safe covered sourceID
  | CHANGE_TRUST op => exact op.doApply_safe covered sourceID
  | ALLOW_TRUST op => exact op.doApply_safe covered sourceID
  | ACCOUNT_MERGE destination => exact AccountMerge.doApply_avoids sourceID destination ledger
  | INFLATION => trivial
  | MANAGE_DATA op => exact op.doApply_safe covered sourceID
  | BUMP_SEQUENCE bumpTo => exact BumpSequence.doApply_avoids sourceID bumpTo ledger

namespace Operation

@[grind ←] theorem checkSignature_avoids (env : Environment) (envelope : TransactionEnvelope)
    (op : Operation) (checker : SignatureChecker) (forApply : Bool) :
    Avoids (op.checkSignature env envelope checker forApply) := by
  unfold checkSignature
  grind

@[grind ←] theorem checkSource_avoids (env : Environment) (envelope : TransactionEnvelope)
    (op : Operation) (checker : SignatureChecker) (forApply : Bool) :
    Avoids (op.checkSource env envelope checker forApply) := by
  unfold checkSource
  grind

theorem checkValid_avoids (env : Environment) (envelope : TransactionEnvelope) (op : Operation)
    (checker : SignatureChecker) (forApply : Bool) :
    Avoids (op.checkValid env envelope checker forApply) := by
  unfold checkValid
  grind

theorem apply_safe (covered : Covered ledger) (env : Environment)
    (envelope : TransactionEnvelope) (op : Operation) (checker : SignatureChecker) :
    Safe (op.apply env envelope checker) ledger := by
  have reads : Ensures (op.checkValid env envelope checker true) ledger
      fun _ after => after = ledger := by
    unfold checkValid
    rw [Ensures, wp_rolledBack]
    apply Ensures.mono (ensures_true _)
    intro _ _ _
    rfl
  unfold apply
  apply Safe.read (op.checkValid_avoids env envelope checker true) reads
  rintro ⟨checker', result⟩
  cases result with
  | error code => trivial
  | ok _ =>
      apply Safe.followed (op.body.doApply_safe covered _ env.book)
      grind

end Operation

/-! ### Used signers -/

theorem removeAccountSigner_spares {header : LedgerHeader} {account : AccountEntry}
    (covered : account.signers.length ≤ account.numSubEntries) (key : SignerKey) :
    Spares (removeAccountSigner header account key) := by
  unfold removeAccountSigner
  split
  · rename_i has
    obtain ⟨signer, member, _⟩ := List.any_eq_true.mp has
    have nonempty : 0 < account.signers.length := List.length_pos_of_mem member
    apply Spares.bind (addNumEntries_spares header account (by omega))
    grind
  · exact Spares.pure _

theorem removeFirstSigner_spares {header : LedgerHeader} {account : AccountEntry}
    (covered : account.signers.length ≤ account.numSubEntries) (keys : List SignerKey) :
    Spares (removeFirstSigner header account keys) := by
  induction keys with
  | nil => exact Spares.pure _
  | cons key rest ih =>
      unfold removeFirstSigner
      apply Spares.bind (removeAccountSigner_spares covered key)
      intro result
      cases result with
      | some updated => exact Spares.pure _
      | none => exact ih

theorem removeUsedOneTimeSignerKeysOf_safe (covered : Covered ledger) (accountID : AccountID)
    (keys : List SignerKey) : Safe (removeUsedOneTimeSignerKeysOf accountID keys) ledger := by
  unfold removeUsedOneTimeSignerKeysOf
  apply Safe.load
  cases found : (accountTable.read ledger).lookup accountID with
  | none => trivial
  | some account =>
      apply Safe.header
      apply Safe.followed (Avoids.computed
        (removeFirstSigner_spares (covered.signers_le found) keys) ledger)
      grind

theorem removeUsedOneTimeSignerKeysOf_follows (accountID : AccountID) (keys : List SignerKey)
    (start : Ledger) :
    Ensures (removeUsedOneTimeSignerKeysOf accountID keys) start fun _ after =>
      Follows [] 0 start after := by
  unfold removeUsedOneTimeSignerKeysOf
  simp only [Ensures, wp_bind, wp_load, accountTable_read]
  cases found : start.accounts.lookup accountID with
  | none => exact Follows.refl start
  | some account =>
      simp only [wp_bind, wp_loadHeader, wp_computed]
      cases removed : removeFirstSigner start.header account keys with
      | error fault => trivial
      | ok result =>
          cases result with
          | none => exact Follows.refl start
          | some updated =>
              exact SetOptionsOp.follows_retains found (removeFirstSigner_retains removed)

theorem forM_safe {α : Type} (items : List α) (step : α → Apply Unit)
    (follows : ∀ item start, Ensures (step item) start fun _ after => Follows [] 0 start after)
    (safe : ∀ item start, Covered start → Safe (step item) start) (covered : Covered ledger) :
    Safe (items.forM step) ledger := by
  induction items generalizing ledger with
  | nil => trivial
  | cons item rest ih =>
      change Safe (step item >>= fun _ => rest.forM step) ledger
      apply Safe.bind (safe item ledger covered) (follows item ledger)
      intro _ after reached
      exact ih (covered.follow reached fun _ => le_rfl)

theorem removeUsedOneTimeSignerKeys_safe (covered : Covered ledger) (checker : SignatureChecker) :
    Safe (removeUsedOneTimeSignerKeys checker) ledger :=
  forM_safe _ _ (fun used start => removeUsedOneTimeSignerKeysOf_follows used.1 used.2 start)
    (fun used _ coveredStart => removeUsedOneTimeSignerKeysOf_safe coveredStart used.1 used.2) covered

theorem removeUsedOneTimeSignerKeys_follows (checker : SignatureChecker) :
    Ensures (removeUsedOneTimeSignerKeys checker) ledger fun _ after => Follows [] 0 ledger after :=
  forM_follows checker.usedOneTimeSignerKeys.entries
    (fun used => removeUsedOneTimeSignerKeysOf used.1 used.2)
    (fun used start => removeUsedOneTimeSignerKeysOf_follows used.1 used.2 start) ledger

end ViiCore.Transactions

namespace ViiCore.Herder

open ViiCore.Ledger ViiCore.FiniteMap ViiCore.Execution ViiCore.Transactions

variable {ledger : Ledger}

/-! ### Upgrades -/

@[grind ←] theorem addLiabilities_spares (liabilities : InitialLiabilities) (accountID : AccountID)
    (asset : Asset) (delta : Int) : Spares (addLiabilities liabilities accountID asset delta) := by
  unfold addLiabilities
  grind

@[grind ←] theorem getAvailableBalanceExcludingLiabilities_avoids (accountID : AccountID)
    (asset : Asset) (balanceAboveReserve : Int) :
    Avoids (getAvailableBalanceExcludingLiabilities accountID asset balanceAboveReserve) := by
  unfold getAvailableBalanceExcludingLiabilities
  grind

@[grind ←] theorem getAvailableLimitExcludingLiabilities_avoids (accountID : AccountID)
    (asset : Asset) (balance : Int) :
    Avoids (getAvailableLimitExcludingLiabilities accountID asset balance) := by
  unfold getAvailableLimitExcludingLiabilities
  grind

@[grind ←] theorem shouldDeleteOffer_avoids (asset : Asset) (liabilities : InitialLiabilities)
    {getCap : Apply Int} (avoids : Avoids getCap) :
    Avoids (shouldDeleteOffer asset liabilities getCap) := by
  unfold shouldDeleteOffer
  grind

@[grind ←] theorem isOverCommitted_avoids (measure : Measure) (key : OfferKey)
    (offer : OfferEntry) : Avoids (isOverCommitted measure key offer) := by
  unfold isOverCommitted
  grind

@[grind ←] theorem addSide_spares (liabilities : Map Asset Liabilities) (sellerID : AccountID)
    (asset : Asset) (old : Liabilities → Int) (update : Liabilities → Int → Liabilities)
    (delta : Int) {what : String} (different : what ≠ "invalid account state") :
    Spares (addSide liabilities sellerID asset old update delta what) := by
  unfold addSide
  grind

@[grind ←] theorem keepOffer_spares (header : LedgerHeader) (sellerID : AccountID)
    (offer : OfferEntry) (liabilities : Map Asset Liabilities) :
    Spares (keepOffer header sellerID offer liabilities) := by
  unfold keepOffer
  grind

@[grind ←] theorem updateOffer_avoids (measure : Measure) (key : OfferKey)
    (liabilities : Map Asset Liabilities) : Avoids (updateOffer measure key liabilities) := by
  unfold updateOffer
  grind

theorem updateOffers_safe (covered : Covered ledger) (measure : Measure) (keys : List OfferKey)
    (liabilities : Map Asset Liabilities) :
    Safe (updateOffers measure keys liabilities) ledger := by
  induction keys generalizing ledger liabilities with
  | nil => trivial
  | cons key rest ih =>
      unfold updateOffers
      apply Safe.bind (updateOffer_avoids measure key liabilities ledger)
        (updateOffer_follows measure key liabilities)
      rintro ⟨result, sums⟩ middle updated
      simp only at updated ⊢
      split
      · rename_i gone
        rw [if_pos gone] at updated
        apply Safe.bind (covered.spare updated) (dropEntry_follows key.sellerID)
        rintro _ dropped ⟨_, droppedFollows⟩
        apply ih
        apply covered.follow (updated.trans droppedFollows)
        intro other
        simp only [only, Pi.add_apply]
        split <;> decide
      · rename_i stays
        rw [if_neg stays] at updated
        exact ih (covered.follow updated fun _ => le_rfl) sums

@[grind ←] theorem initialLiabilities_spares (header : LedgerHeader) (sellerID : AccountID)
    (offers : List OfferEntry) (sums : InitialLiabilities × InitialLiabilities) :
    Spares (initialLiabilities header sellerID offers sums) := by
  induction offers generalizing sums with
  | nil => exact Spares.pure _
  | cons offer rest ih =>
      unfold initialLiabilities
      grind

theorem recordNative_avoids (sellerID : AccountID) (selling buying : Int) :
    Avoids (do
      orThrow (updateAccount sellerID (addSellingLiabilitiesToAccount · · selling))
        "invalid selling liabilities during upgrade"
      orThrow (updateAccount sellerID (addBuyingLiabilitiesToAccount · · buying))
        "invalid buying liabilities during upgrade") := by
  grind

theorem recordCredit_avoids (sellerID : AccountID) (asset : Asset) (selling buying : Int) :
    Avoids (do
      orThrow (updateTrustLine sellerID asset (addSellingLiabilitiesToTrustLine · · selling))
        "invalid selling liabilities during upgrade"
      orThrow (updateTrustLine sellerID asset (addBuyingLiabilitiesToTrustLine · · buying))
        "invalid buying liabilities during upgrade") := by
  grind

theorem recordLiabilities_avoids (sellerID : AccountID) (asset : Asset)
    (liab : Liabilities) : Avoids (recordLiabilities sellerID asset liab) := by
  unfold recordLiabilities
  apply Avoids.bind Avoids.loadHeader
  intro header
  split
  · apply Avoids.bind (Avoids.current accountTable sellerID)
    intro account
    apply Avoids.bind (Avoids.computed (getSellingLiabilities_spares header account.ext))
    intro selling
    apply Avoids.bind (Avoids.computed (getBuyingLiabilities_spares header account.ext))
    intro buying
    exact recordNative_avoids sellerID _ _
  · apply Avoids.bind (loadTrustLine_avoids sellerID asset)
    intro line
    rcases line with _ | _ | line
    · exact Avoids.throw (by simp)
    · exact Avoids.pure _
    · apply Avoids.bind (Avoids.computed (getSellingLiabilities_spares header line.ext))
      intro selling
      apply Avoids.bind (Avoids.computed (getBuyingLiabilities_spares header line.ext))
      intro buying
      exact recordCredit_avoids sellerID asset _ _

theorem recordEach_avoids (sellerID : AccountID)
    (entries : List (Sigma fun _ : Asset => Liabilities)) :
    Avoids (entries.forM fun entry => recordLiabilities sellerID entry.1 entry.2) := by
  induction entries with
  | nil => exact Avoids.pure _
  | cons entry rest ih =>
      change Avoids (recordLiabilities sellerID entry.1 entry.2 >>= fun _ => rest.forM _)
      exact Avoids.bind (recordLiabilities_avoids _ _ _) (fun _ => ih)

theorem prepareAccount_safe (covered : Covered ledger) (offers : List (OfferKey × OfferEntry))
    (sellerID : AccountID) : Safe (prepareAccount offers sellerID) ledger := by
  unfold prepareAccount
  apply Safe.header
  dsimp only
  apply Safe.read (by grind) (computed_reads _)
  rintro ⟨buying, selling⟩
  apply Safe.load
  split
  · exact Avoids.throw (by simp) ledger
  · apply Safe.followed (updateOffers_safe covered _ _ _)
    intro liabilities
    exact recordEach_avoids sellerID liabilities.entries

theorem prepareLiabilities_safe (covered : Covered ledger) : Safe prepareLiabilities ledger := by
  unfold prepareLiabilities
  have reads : Ensures (get : Apply Ledger) ledger fun _ after => after = ledger := rfl
  apply Safe.read Avoids.get reads
  intro before
  exact forM_safe _ _ (fun sellerID start => prepareAccount_follows _ sellerID start)
    (fun sellerID _ coveredStart => prepareAccount_safe coveredStart _ sellerID) covered

theorem Covered.withHeader (covered : Covered ledger) (header : LedgerHeader) :
    Covered { ledger with header } :=
  covered

theorem applyTo_safe (covered : Covered ledger) (upgrade : LedgerUpgrade) :
    Safe (applyTo upgrade) ledger := by
  cases upgrade with
  | LEDGER_UPGRADE_BASE_FEE newBaseFee => trivial
  | LEDGER_UPGRADE_MAX_TX_SET_SIZE newMaxTxSetSize => trivial
  | LEDGER_UPGRADE_VERSION newVersion =>
      unfold applyTo applyVersionUpgrade
      apply Safe.header
      simp only [Safe, modifyHeader, wp_bind, wp_modify, wp_ite]
      constructor
      · intro _
        exact prepareLiabilities_safe (Covered.withHeader covered _)
      · intro _
        trivial
  | LEDGER_UPGRADE_BASE_RESERVE newReserve =>
      unfold applyTo applyReserveUpgrade
      apply Safe.header
      simp only [Safe, modifyHeader, wp_bind, wp_modify, wp_ite]
      constructor
      · intro _
        exact prepareLiabilities_safe (Covered.withHeader covered _)
      · intro _
        trivial

end ViiCore.Herder
