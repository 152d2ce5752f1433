import ViiCore.Transactions.OperationEffects

/-!
The effect of the operations that create, change or erase single entries: accounts, their
options, trust lines and data.
-/

namespace ViiCore.Transactions

open ViiCore.Ledger ViiCore.FiniteMap ViiCore.Execution

variable {ledger : Ledger}

theorem forM_follows {α : Type} (items : List α) (step : α → Apply Unit)
    (each : ∀ item (start : Ledger), Ensures (step item) start fun _ after => Follows [] 0 start after)
    (start : Ledger) : Ensures (items.forM step) start fun _ after => Follows [] 0 start after := by
  induction items generalizing start with
  | nil => exact Follows.refl start
  | cons item rest ih =>
      change Ensures (step item >>= fun _ => rest.forM step) start _
      apply Ensures.bind (each item start)
      intro _ middle early
      apply Ensures.mono (ih middle)
      intro _ after late
      exact early.trans late

/-! ### Whole accounts -/

theorem sequenceFloor_some {accountID : AccountID} {account : AccountEntry}
    (found : ledger.accounts.lookup accountID = some account) :
    sequenceFloor accountID ledger = account.seqNum := by
  unfold sequenceFloor
  rw [found]
  rfl

theorem sequenceFloor_insert (ledger : Ledger) (accountID : AccountID) (account : AccountEntry) :
    sequenceFloor accountID { ledger with accounts := ledger.accounts.insert accountID account } =
      account.seqNum := by
  unfold sequenceFloor
  rw [AList.lookup_insert]
  rfl

theorem sequenceFloor_none {accountID : AccountID}
    (absent : ledger.accounts.lookup accountID = none) :
    sequenceFloor accountID ledger =
      toSigned64 (getStartingSequenceNumber ledger.header) - 1 := by
  unfold sequenceFloor
  rw [absent, Option.map_none, Option.getD_none]

theorem sequenceFloor_congr {accountID : AccountID} {before after : Ledger}
    (header : after.header = before.header)
    (same : after.accounts.lookup accountID = before.accounts.lookup accountID) :
    sequenceFloor accountID after = sequenceFloor accountID before := by
  unfold sequenceFloor
  rw [same, header]

theorem follows_createAccount {accountID : AccountID} (account : AccountEntry)
    (absent : ledger.accounts.lookup accountID = none)
    (start : toSigned64 (getStartingSequenceNumber ledger.header) ≤ account.seqNum)
    (noEntries : account.numSubEntries = 0) (noSigners : account.signers = []) :
    Follows [⟨accountID, .native, account.balance⟩] 0 ledger
      { ledger with accounts := ledger.accounts.insert accountID account } where
  header := rfl
  floors _ other := by
    by_cases equal : other = accountID
    · subst equal
      rw [sequenceFloor_none absent, sequenceFloor_insert]
      exact Int.le_of_lt (Int.sub_one_lt_of_le start)
    · apply le_of_eq
      symm
      apply sequenceFloor_congr
      · rfl
      · exact AList.lookup_insert_ne equal
  moved asset := by
    cases asset with
    | native => simp [holdings, total_insert, share_of_absent absent, Movement.stored, Asset.issuer?]
    | alphaNum4 code issuer => simp [holdings, Movement.stored]
    | alphaNum12 code issuer => simp [holdings, Movement.stored]
  counted other := by
    unfold surplus
    by_cases equal : other = accountID
    · subst equal
      simp [absent, noEntries, noSigners, ownedEntries]
    · simp [AList.lookup_insert_ne equal, ownedEntries]
  fits fit other entry stored := by
    by_cases equal : other = accountID
    · subst equal
      rw [AList.lookup_insert] at stored
      cases stored
      rw [noEntries]
      decide
    · rw [AList.lookup_insert_ne equal] at stored
      exact fit other entry stored

theorem follows_eraseAccount {accountID : AccountID} {account : AccountEntry}
    (found : ledger.accounts.lookup accountID = some account)
    (behind : 10 ≤ ledger.header.ledgerVersion →
      account.seqNum < toSigned64 (getStartingSequenceNumber ledger.header))
    (onlySigners : account.numSubEntries = account.signers.length) :
    Follows [⟨accountID, .native, -account.balance⟩] 0 ledger
      { ledger with accounts := ledger.accounts.erase accountID } where
  header := rfl
  floors version other := by
    by_cases equal : other = accountID
    · subst equal
      have erased : sequenceFloor other
          { ledger with accounts := ledger.accounts.erase other } =
            toSigned64 (getStartingSequenceNumber ledger.header) - 1 :=
        sequenceFloor_none (AList.lookup_erase other ledger.accounts)
      rw [sequenceFloor_some found, erased]
      exact Int.le_sub_one_of_lt (behind version)
    · apply le_of_eq
      symm
      apply sequenceFloor_congr
      · rfl
      · exact AList.lookup_erase_ne equal
  moved asset := by
    cases asset with
    | native =>
        simp only [holdings, total_erase, share_of_lookup found, storedSum_cons, storedSum_nil,
          Movement.stored, Asset.issuer?]
        simp only [ne_eq, reduceCtorEq, not_false_eq_true, and_self, if_true]
        omega
    | alphaNum4 code issuer => simp [holdings, Movement.stored]
    | alphaNum12 code issuer => simp [holdings, Movement.stored]
  counted other := by
    unfold surplus
    by_cases equal : other = accountID
    · subst equal
      simp [found, onlySigners, ownedEntries]
    · simp [AList.lookup_erase_ne equal, ownedEntries]
  fits fit other entry stored := by
    by_cases equal : other = accountID
    · subst equal
      simp at stored
    · rw [AList.lookup_erase_ne equal] at stored
      exact fit other entry stored

theorem CreateAccountOp.doApply_follows (op : CreateAccountOp) (sourceID : AccountID) :
    Succeeds (op.doApply sourceID) ledger fun _ after =>
      Follows [⟨sourceID, .native, -op.startingBalance⟩,
        ⟨op.destination, .native, op.startingBalance⟩] 0 ledger after := by
  unfold CreateAccountOp.doApply
  simp only [Succeeds, Ensures, wp_bind, wp_load, accountTable_read]
  cases ledger.accounts.lookup op.destination with
  | some existing => exact Succeeds.error
  | none =>
      simp only [wp_bind, wp_loadHeader, wp_ite]
      refine ⟨fun _ => Succeeds.error, fun _ => ?_⟩
      simp only [wp_current, accountTable_read]
      cases ledger.accounts.lookup sourceID with
      | none => trivial
      | some source =>
          apply Ensures.mono (computed_reads _)
          rintro available start rfl
          refine ⟨fun _ => Succeeds.error, fun _ => ?_⟩
          apply Ensures.mono (addBalance_follows sourceID .native (-op.startingBalance))
          intro ok paid result
          cases ok with
          | false => trivial
          | true =>
              simp only [assertThat, if_true, wp_computed, pure, Except.pure, wp_create,
                accountTable_read, accountTable_write]
              cases absent : paid.accounts.lookup op.destination with
              | some _ => trivial
              | none =>
                  apply Succeeds.ok
                  have same : getStartingSequenceNumber paid.header =
                      getStartingSequenceNumber start.header := by
                    rw [result.1.header]
                    rfl
                  have created := follows_createAccount (op.newAccount start.header) absent
                    (le_of_eq (congrArg toSigned64 same)) rfl rfl
                  exact (result.1.trans created).congr (fun _ => rfl) (by simp)

theorem addBalance_native_other (accountID : AccountID) (delta : Int) (other : AccountID)
    (different : other ≠ accountID) :
    Ensures (addBalance accountID .native delta) ledger fun _ after =>
      after.accounts.lookup other = ledger.accounts.lookup other := by
  apply Ensures.mono (updateAccount_ensures accountID _)
  intro ok after result
  cases ok with
  | false =>
      rw [result]
  | true =>
      obtain ⟨account, updated, _, _, rfl⟩ := result
      exact AList.lookup_insert_ne different

theorem AccountMerge.doApply_follows (sourceID destination : AccountID)
    (different : sourceID ≠ destination) :
    Succeeds (AccountMerge.doApply sourceID destination) ledger fun success after =>
      ∃ balance, success = .accountMerge balance ∧
        Follows [⟨destination, .native, balance⟩, ⟨sourceID, .native, -balance⟩] 0 ledger after := by
  unfold AccountMerge.doApply
  simp only [Succeeds, Ensures, wp_bind, wp_loadHeader, wp_load, accountTable_read]
  cases ledger.accounts.lookup destination with
  | none => exact Succeeds.error
  | some _ =>
      simp only [wp_bind, wp_current, accountTable_read]
      cases found : ledger.accounts.lookup sourceID with
      | none => trivial
      | some source =>
          simp only [wp_ite, wp_bind]
          refine ⟨fun _ => Succeeds.error, fun _ => ⟨fun _ => Succeeds.error, fun onlySigners =>
            ⟨fun _ => Succeeds.error, fun behind => ?_⟩⟩⟩
          apply Ensures.mono (Ensures.and (addBalance_follows destination .native source.balance)
            (addBalance_native_other destination source.balance sourceID different))
          intro ok paid ⟨result, kept⟩
          cases ok with
          | false => exact ⟨fun impossible => absurd impossible (by decide), fun _ => Succeeds.error⟩
          | true =>
              refine ⟨fun _ => ?_, fun impossible => absurd rfl impossible⟩
              rw [found] at kept
              simp only [wp_erase, accountTable_read, accountTable_write, kept]
              apply Succeeds.ok
              refine ⟨source.balance, rfl, ?_⟩
              have erased : Follows [⟨sourceID, .native, -source.balance⟩] 0 paid _ :=
                follows_eraseAccount kept
                  (by
                    rw [result.1.header]
                    intro version
                    by_contra notBehind
                    exact behind ⟨version, not_lt.mp notBehind⟩)
                  (not_not.mp onlySigners)
              exact (result.1.trans erased).congr (fun _ => rfl) (by simp)

/-! ### Options -/

namespace SetOptionsOp

structure Retains (account updated : AccountEntry) : Prop where
  balance : updated.balance = account.balance
  seqNum : account.seqNum ≤ updated.seqNum
  counted : (updated.numSubEntries : Int) - updated.signers.length =
    account.numSubEntries - account.signers.length
  fits : updated.numSubEntries ≤ account.numSubEntries

theorem Retains.trans {account middle updated : AccountEntry} (first : Retains account middle)
    (second : Retains middle updated) : Retains account updated where
  balance := second.balance.trans first.balance
  seqNum := first.seqNum.trans second.seqNum
  counted := second.counted.trans first.counted
  fits := second.fits.trans first.fits

theorem follows_retains {accountID : AccountID} {account updated : AccountEntry}
    (found : ledger.accounts.lookup accountID = some account) (retains : Retains account updated) :
    Follows [] 0 ledger { ledger with accounts := ledger.accounts.insert accountID updated } := by
  have stored := follows_storeAccount updated 0 0 found retains.seqNum
    (by rw [retains.balance]; simp) (by rw [retains.counted]; simp)
    (fun fit => (Int.ofNat_le.mpr retains.fits).trans fit)
  apply stored.congr
  · intro asset
    simp [Movement.stored]
  · intro other
    simp [only]

theorem editSource_follows (sourceID : AccountID)
    (edit : AccountEntry → Except OperationFailure AccountEntry)
    (retains : ∀ account updated, edit account = .ok updated → Retains account updated) :
    Succeeds (editSource sourceID edit) ledger fun _ after => Follows [] 0 ledger after := by
  unfold editSource
  simp only [Succeeds, Ensures, wp_bind, wp_current, accountTable_read]
  cases found : ledger.accounts.lookup sourceID with
  | none => trivial
  | some account =>
      simp only
      cases edited : edit account with
      | error code => exact Succeeds.error
      | ok updated =>
          rintro _ ⟨⟩
          exact follows_retains found (retains account updated edited)

theorem setInflationDest_follows (op : SetOptionsOp) (sourceID : AccountID) :
    Succeeds (op.setInflationDest sourceID) ledger fun _ after => Follows [] 0 ledger after := by
  unfold setInflationDest
  cases op.inflationDest with
  | none => exact Succeeds.ok (Follows.refl ledger)
  | some inflationID =>
      simp only [Succeeds, Ensures, wp_bind, wp_load, wp_ite]
      refine ⟨fun _ => Succeeds.error, fun _ => ?_⟩
      apply editSource_follows
      rintro account _ ⟨⟩
      exact ⟨rfl, le_rfl, rfl, le_rfl⟩

theorem changeFlags_retains (change : Option (BitVec 32))
    (combine : BitVec 32 → BitVec 32 → BitVec 32) (account updated : AccountEntry)
    (changed : changeFlags change combine account = .ok updated) : Retains account updated := by
  unfold changeFlags at changed
  cases change with
  | none =>
      cases changed
      exact ⟨rfl, le_rfl, rfl, le_rfl⟩
  | some flags =>
      simp only at changed
      split at changed
      · cases changed
      · cases changed
        exact ⟨rfl, le_rfl, rfl, le_rfl⟩

theorem normalizeSigners_retains (account : AccountEntry) :
    Retains account (normalizeSigners account) :=
  ⟨rfl, le_rfl, by simp [normalizeSigners, List.length_insertionSort], le_rfl⟩

theorem addSigner_follows (sourceID : AccountID) (signer : Signer) :
    Succeeds (addSigner sourceID signer) ledger fun _ after => Follows [] 0 ledger after := by
  unfold addSigner
  simp only [Succeeds, Ensures, wp_bind, wp_current, accountTable_read]
  cases found : ledger.accounts.lookup sourceID with
  | none => trivial
  | some account =>
      simp only [wp_ite, wp_bind]
      refine ⟨fun _ => ?_, fun _ => ⟨fun _ => Succeeds.error, fun _ => ?_⟩⟩
      · apply Succeeds.ok
        exact follows_retains found ⟨rfl, le_rfl, by simp, le_rfl⟩
      · apply Succeeds.andThen (addSubEntry_follows sourceID _)
        rintro _ counted ⟨_, countedFollows⟩
        unfold editSource
        simp only [Succeeds, Ensures, wp_bind, wp_current, accountTable_read]
        cases still : counted.accounts.lookup sourceID with
        | none => trivial
        | some current =>
            rintro _ ⟨⟩
            have stored := follows_storeAccount { current with signers := current.signers ++ [signer] }
              0 (-1) still le_rfl (by simp) (by simp; omega) id
            apply (countedFollows.trans stored).congr
            · intro asset
              simp [Movement.stored]
            · intro other
              simp only [only, Pi.add_apply]
              split <;> rfl

theorem dropEntries_ok {header : LedgerHeader} (removed : List Signer)
    {account updated : AccountEntry}
    (dropped : removed.foldlM
      (fun account _ => return (← addNumEntries header account (-1)).2) account = .ok updated) :
    ∃ entries : Nat, updated = { account with numSubEntries := entries } ∧
      (entries : Int) = account.numSubEntries - removed.length := by
  induction removed generalizing account with
  | nil =>
      cases dropped
      exact ⟨updated.numSubEntries, rfl, by simp⟩
  | cons head tail ih =>
      rw [List.foldlM_cons] at dropped
      obtain ⟨first, once, rest⟩ := except_bind_ok.mp dropped
      obtain ⟨⟨result, entry⟩, counted, same⟩ := except_bind_ok.mp once
      cases same
      rcases addNumEntries_ok counted with ⟨-, entries, rfl, sum, -⟩ | ⟨-, -, impossible⟩
      · obtain ⟨final, rfl, total⟩ := ih rest
        refine ⟨final, rfl, ?_⟩
        rw [total, List.length_cons]
        simp only [sum]
        omega
      · omega

theorem removeSigners_retains {header : LedgerHeader} {key : SignerKey}
    {account updated : AccountEntry} (removed : removeSigners header key account = .ok updated) :
    Retains account updated := by
  unfold removeSigners at removed
  dsimp only at removed
  obtain ⟨dropped, counted, same⟩ := except_bind_ok.mp removed
  obtain ⟨entries, rfl, total⟩ := dropEntries_ok _ counted
  cases same
  have parts := List.length_eq_length_filter_add (l := account.signers) fun old => old.key = key
  simp only [decide_not] at parts ⊢
  refine ⟨rfl, le_rfl, ?_, ?_⟩
  · simp only
    omega
  · simp only
    omega

theorem removeSigner_follows (sourceID : AccountID) (key : SignerKey) :
    Succeeds (removeSigner sourceID key) ledger fun _ after => Follows [] 0 ledger after := by
  unfold removeSigner
  simp only [Succeeds, Ensures, wp_bind, wp_loadHeader, wp_current, accountTable_read]
  cases found : ledger.accounts.lookup sourceID with
  | none => trivial
  | some account =>
      simp only [wp_computed]
      cases removed : removeSigners ledger.header key account with
      | error fault => trivial
      | ok updated =>
          rintro _ ⟨⟩
          exact follows_retains found (removeSigners_retains removed)

theorem changeSigner_follows (op : SetOptionsOp) (sourceID : AccountID) :
    Succeeds (op.changeSigner sourceID) ledger fun _ after => Follows [] 0 ledger after := by
  unfold changeSigner
  cases op.signer with
  | none => exact Succeeds.ok (Follows.refl ledger)
  | some signer =>
      have changed : Succeeds
          (if signer.weight ≠ 0 then addSigner sourceID signer else removeSigner sourceID signer.key)
          ledger fun _ after => Follows [] 0 ledger after := by
        split
        · exact addSigner_follows sourceID signer
        · exact removeSigner_follows sourceID signer.key
      apply Succeeds.andThen changed
      intro _ middle early
      apply Succeeds.mono (editSource_follows sourceID _ ?_)
      · intro _ after late
        exact early.trans late
      · rintro account _ ⟨⟩
        exact normalizeSigners_retains account

theorem doApply_follows (op : SetOptionsOp) (sourceID : AccountID) :
    Succeeds (op.doApply sourceID) ledger fun _ after => Follows [] 0 ledger after := by
  unfold doApply
  apply Succeeds.andThen (op.setInflationDest_follows sourceID)
  intro _ first toFirst
  apply Succeeds.andThen (editSource_follows sourceID _ (changeFlags_retains _ _))
  intro _ second toSecond
  apply Succeeds.andThen (editSource_follows sourceID _ (changeFlags_retains _ _))
  intro _ third toThird
  have domain : ∀ account updated : AccountEntry,
      (Except.ok (op.setDomainAndThresholds account) : Except OperationFailure AccountEntry) =
        .ok updated → Retains account updated := by
    rintro account _ ⟨⟩
    exact ⟨rfl, le_rfl, rfl, le_rfl⟩
  apply Succeeds.andThen (editSource_follows sourceID _ domain)
  intro _ fourth toFourth
  apply Succeeds.andThen (op.changeSigner_follows sourceID)
  intro _ fifth toFifth
  exact Succeeds.ok (toFirst.trans (toSecond.trans (toThird.trans (toFourth.trans toFifth))))

end SetOptionsOp

/-! ### Trust lines -/

/-- Balances are checked by the database to be nonnegative, and liabilities are written by
`addToBalance` only, which never makes them negative. -/
def NonNegative (ledger : Ledger) : Prop :=
  ∀ key line, ledger.trustLines.lookup key = some line →
    0 ≤ line.balance ∧ 0 ≤ (recorded line.ext).buying

namespace ChangeTrustOp

theorem getMinimumLimit_ok {header : LedgerHeader} {line : TrustLineEntry} {limit : Int}
    (computed : getMinimumLimit header line = .ok limit) :
    limit = line.balance ∨ limit = line.balance + (recorded line.ext).buying := by
  unfold getMinimumLimit at computed
  obtain ⟨reserved, read, same⟩ := except_bind_ok.mp computed
  cases same
  unfold getReservedLimit at read
  split at read
  · right
    rw [getBuyingLiabilities_ok read]
  · left
    cases read
    simp

theorem changeLine_follows (op : ChangeTrustOp) (sourceID issuerID : AccountID)
    (line : TrustLineEntry) (issued : op.line.issuer? = some issuerID)
    (different : issuerID ≠ sourceID) (found : ledger.trustLines.lookup (op.key sourceID) = some line) :
    Succeeds (op.changeLine sourceID issuerID line) ledger fun _ after =>
      ∃ lost, Follows lost 0 ledger after ∧
        (NonNegative ledger → ∀ asset, storedSum asset lost = 0) := by
  unfold changeLine
  simp only [Succeeds, Ensures, wp_bind, wp_loadHeader, wp_computed]
  cases limited : getMinimumLimit ledger.header line with
  | error fault => trivial
  | ok minimum =>
      simp only [wp_ite, wp_bind, wp_erase, wp_load, trustLineTable_read, trustLineTable_write, found]
      refine ⟨fun _ => Succeeds.error, fun enough => ⟨fun zero => ?_, fun _ =>
        ⟨fun _ => Succeeds.error, fun _ => ?_⟩⟩⟩
      · apply Ensures.mono (dropEntry_follows sourceID)
        rintro _ after ⟨_, dropped⟩ _ _
        have credit : (op.key sourceID).asset.issuer? ≠ some (op.key sourceID).accountID := by
          simp [key, issued, different]
        have notNative : (op.key sourceID).asset ≠ .native := by
          intro native
          have lineNative : op.line = .native := native
          rw [lineNative] at issued
          cases issued
        refine ⟨_, ((follows_eraseTrustLine found credit notNative).trans dropped).congr
          (fun _ => rfl) ?_, ?_⟩
        · intro other
          simp only [only, key, Pi.add_apply, Pi.zero_apply]
          split <;> rfl
        · intro nonneg asset
          have bounds := nonneg _ _ found
          have empty : line.balance = 0 := by
            rcases getMinimumLimit_ok limited with same | same <;> omega
          simp [Movement.stored, empty]
      · rintro _ ⟨⟩
        refine ⟨[], follows_sameBalance _ found rfl, fun _ _ => rfl⟩

theorem createLine_follows (op : ChangeTrustOp) (sourceID issuerID : AccountID) :
    Succeeds (op.createLine sourceID issuerID) ledger fun _ after => Follows [] 0 ledger after := by
  unfold createLine
  simp only [Succeeds, Ensures, wp_ite, wp_bind, wp_load, accountTable_read]
  refine ⟨fun _ => Succeeds.error, fun _ => ?_⟩
  cases ledger.accounts.lookup issuerID with
  | none => exact Succeeds.error
  | some issuer =>
      apply Succeeds.andThen (addSubEntry_follows sourceID _)
      intro _ counted ⟨_, countedFollows⟩
      simp only [Succeeds, Ensures, wp_bind, wp_create, trustLineTable_read, trustLineTable_write]
      cases absent : counted.trustLines.lookup (op.key sourceID) with
      | some old => trivial
      | none =>
          rintro _ ⟨⟩
          apply (countedFollows.trans (follows_createTrustLine _ absent rfl)).congr
          · intro asset
            rfl
          · intro other
            simp only [only, key, Pi.add_apply, Pi.zero_apply]
            split <;> rfl

theorem doApply_follows (op : ChangeTrustOp) (sourceID : AccountID) :
    Succeeds (op.doApply sourceID) ledger fun _ after =>
      ∃ lost, Follows lost 0 ledger after ∧
        (NonNegative ledger → ∀ asset, storedSum asset lost = 0) := by
  unfold doApply getIssuer
  cases issued : op.line.issuer? with
  | none => trivial
  | some issuerID =>
      simp only [Succeeds, Ensures, wp_bind, wp_computed, pure, Except.pure, wp_ite, wp_load,
        trustLineTable_read]
      refine ⟨fun _ => Succeeds.error, fun different => ?_⟩
      cases found : ledger.trustLines.lookup (op.key sourceID) with
      | some line => exact op.changeLine_follows sourceID issuerID line issued different found
      | none =>
          apply Succeeds.mono (op.createLine_follows sourceID issuerID)
          intro _ after follows
          exact ⟨[], follows, fun _ _ => rfl⟩

end ChangeTrustOp

namespace AllowTrustOp

theorem checkSource_reads (op : AllowTrustOp) (sourceID : AccountID) :
    Succeeds (op.checkSource sourceID) ledger fun _ after => after = ledger := by
  unfold checkSource
  simp only [Succeeds, Ensures, wp_bind, wp_current, accountTable_read]
  cases ledger.accounts.lookup sourceID with
  | none => trivial
  | some source =>
      simp only [wp_ite]
      exact ⟨fun _ => Succeeds.error, fun _ => ⟨fun _ => Succeeds.error, fun _ => Succeeds.ok rfl⟩⟩

theorem removeOffer_follows (op : AllowTrustOp) (sourceID : AccountID)
    (offer : OfferKey × OfferEntry) :
    Ensures (op.removeOffer sourceID offer) ledger fun _ after => Follows [] 0 ledger after := by
  unfold removeOffer
  simp only [Ensures, wp_ite, wp_bind]
  refine ⟨fun _ => trivial, fun owned => ⟨fun _ => trivial, fun _ => ?_⟩⟩
  apply Ensures.mono (acquireOrReleaseLiabilities_follows op.trustor offer.2 false)
  intro _ released ⟨releasedFollows, _⟩
  apply Ensures.mono (dropEntry_follows op.trustor)
  intro _ dropped ⟨_, droppedFollows⟩
  simp only [wp_erase, offerTable_read, offerTable_write]
  cases found : dropped.offers.lookup offer.1 with
  | none => trivial
  | some entry =>
      apply ((releasedFollows.trans droppedFollows).trans (follows_eraseOffer found)).congr
      · intro asset
        rfl
      · intro other
        simp only [only, not_not.mp owned, Pi.add_apply, Pi.zero_apply]
        split <;> rfl

theorem removeOffers_follows (op : AllowTrustOp) (sourceID : AccountID) (line : TrustLineEntry) :
    Ensures (op.removeOffers sourceID line) ledger fun _ after => Follows [] 0 ledger after := by
  unfold removeOffers loadOffersByAccountAndAsset
  simp only [Ensures, wp_bind, wp_loadHeader, wp_ite, wp_get, wp_pure]
  refine ⟨fun _ => ?_, fun _ => Follows.refl ledger⟩
  apply forM_follows
  intro offer start
  exact op.removeOffer_follows sourceID offer

theorem authorizeLine_follows (op : AllowTrustOp) (sourceID : AccountID) :
    Succeeds (op.authorizeLine sourceID) ledger fun _ after => Follows [] 0 ledger after := by
  unfold authorizeLine
  simp only [Succeeds, Ensures, wp_bind, wp_current, trustLineTable_read]
  cases found : ledger.trustLines.lookup (op.key sourceID) with
  | none => trivial
  | some line =>
      rintro _ ⟨⟩
      apply follows_sameBalance _ found
      unfold setAuthorized
      split <;> rfl

theorem doApply_follows (op : AllowTrustOp) (sourceID : AccountID) :
    Succeeds (op.doApply sourceID) ledger fun _ after => Follows [] 0 ledger after := by
  unfold doApply
  split
  · exact Succeeds.error
  · apply Succeeds.andThen (op.checkSource_reads sourceID)
    rintro _ start rfl
    simp only [Succeeds, Ensures, wp_bind, wp_load]
    cases (trustLineTable.read start).lookup (op.key sourceID) with
    | none => exact Succeeds.error
    | some line =>
        simp only [wp_bind]
        apply Ensures.mono (op.removeOffers_follows sourceID line)
        intro _ middle early
        apply Succeeds.mono (op.authorizeLine_follows sourceID)
        intro _ after late
        exact early.trans late

end AllowTrustOp

/-! ### Data and sequence numbers -/

theorem ManageDataOp.doApply_follows (op : ManageDataOp) (sourceID : AccountID) :
    Succeeds (op.doApply sourceID) ledger fun _ after => Follows [] 0 ledger after := by
  unfold ManageDataOp.doApply
  simp only [Succeeds, Ensures, wp_bind, wp_load]
  cases op.dataValue with
  | some value =>
      dsimp only
      split
      · apply Succeeds.andThen (addSubEntry_follows sourceID _)
        rintro _ counted ⟨_, countedFollows⟩
        simp only [Succeeds, Ensures, wp_bind, wp_create, dataTable_read, dataTable_write]
        cases absent : counted.data.lookup (op.key sourceID) with
        | some old => trivial
        | none =>
            rintro _ ⟨⟩
            apply (countedFollows.trans (follows_createData value absent)).congr
            · intro asset
              rfl
            · intro other
              simp only [only, ManageDataOp.key, Pi.add_apply, Pi.zero_apply]
              split <;> rfl
      · rename_i present
        obtain ⟨old, found⟩ := Option.ne_none_iff_exists'.mp (by simpa using present)
        rintro _ ⟨⟩
        exact follows_storeData value found
  | none =>
      dsimp only
      split
      · exact Succeeds.error
      · rename_i present
        obtain ⟨old, found⟩ := Option.ne_none_iff_exists'.mp (by simpa using present)
        simp only [wp_bind, wp_erase, dataTable_read, dataTable_write, found]
        apply Ensures.mono (dropEntry_follows sourceID)
        rintro _ after ⟨_, dropped⟩ _ _
        apply ((follows_eraseData found).trans dropped).congr
        · intro asset
          rfl
        · intro other
          simp only [only, ManageDataOp.key, Pi.add_apply, Pi.zero_apply]
          split <;> rfl

theorem BumpSequence.doApply_follows (sourceID : AccountID) (bumpTo : SequenceNumber) :
    Succeeds (BumpSequence.doApply sourceID bumpTo) ledger fun _ after =>
      Follows [] 0 ledger after := by
  unfold BumpSequence.doApply
  simp only [Succeeds, Ensures, wp_bind, wp_current, accountTable_read]
  cases found : ledger.accounts.lookup sourceID with
  | none => trivial
  | some source =>
      simp only [wp_ite, wp_bind]
      refine ⟨fun later => ?_, fun _ => Succeeds.ok (Follows.refl ledger)⟩
      rintro _ ⟨⟩
      exact SetOptionsOp.follows_retains found ⟨rfl, le_of_lt later, rfl, le_rfl⟩

end ViiCore.Transactions
