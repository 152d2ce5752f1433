import ViiCore.Transactions.EntryEffects
import ViiCore.Transactions.TransactionFrame

/-!
What an operation that succeeds does to the sums of balances.

The movements of an operation are read off its body and its result. Each unit of an asset
that one party sends is received by another, so the sum of the stored balances of an
asset changes only by what its issuer sends and receives.
-/

namespace ViiCore.Transactions

open ViiCore.Ledger ViiCore.FiniteMap ViiCore.Execution

variable {ledger : Ledger}

/-! ### Movements of an operation -/

namespace OperationBody

def movements (sourceID : AccountID) : OperationBody → OperationSuccess → List Movement
  | .CREATE_ACCOUNT op, _ =>
      [⟨sourceID, .native, -op.startingBalance⟩, ⟨op.destination, .native, op.startingBalance⟩]
  | .PAYMENT op, _ => [⟨op.destination, op.asset, op.amount⟩, ⟨sourceID, op.asset, -op.amount⟩]
  | .PATH_PAYMENT op, .pathPayment success => op.movements sourceID success
  | .MANAGE_SELL_OFFER op, .manageOffer success =>
      offerMovements (manageSellOfferFrame sourceID op false) success.offersClaimed
  | .CREATE_PASSIVE_SELL_OFFER op, .manageOffer success =>
      offerMovements (createPassiveSellOfferFrame sourceID op) success.offersClaimed
  | .MANAGE_BUY_OFFER op, .manageOffer success =>
      offerMovements (manageBuyOfferFrame sourceID op) success.offersClaimed
  | .ACCOUNT_MERGE destination, .accountMerge balance =>
      [⟨destination, .native, balance⟩, ⟨sourceID, .native, -balance⟩]
  | _, _ => []

def destination? : OperationBody → Option AccountID
  | .CREATE_ACCOUNT op => some op.destination
  | .PAYMENT op => some op.destination
  | .PATH_PAYMENT op => some op.destination
  | .ACCOUNT_MERGE destination => some destination
  | _ => none

end OperationBody

def OperationSuccess.offersClaimed : OperationSuccess → List ClaimOfferAtom
  | .pathPayment success => success.offers
  | .manageOffer success => success.offersClaimed
  | _ => []

def OperationBody.parties (body : OperationBody) (sourceID : AccountID)
    (success : OperationSuccess) : List AccountID :=
  sourceID :: body.destination?.toList ++ success.offersClaimed.map ClaimOfferAtom.sellerID

theorem party_of_claim {move : Movement} {claims : List ClaimOfferAtom}
    (member : move ∈ claimMovements claims) :
    move.party ∈ claims.map ClaimOfferAtom.sellerID := by
  obtain ⟨claim, claimed, moved⟩ := List.mem_flatMap.mp member
  have seller : move.party = claim.sellerID := by
    simp only [ClaimOfferAtom.movements, List.mem_cons, List.not_mem_nil, or_false] at moved
    rcases moved with rfl | rfl <;> rfl
  rw [seller]
  exact List.mem_map_of_mem claimed

theorem party_of_offer {frame : ManageOfferOpFrame} {move : Movement}
    {claims : List ClaimOfferAtom} (member : move ∈ offerMovements frame claims) :
    move.party = frame.sourceID ∨ move.party ∈ claims.map ClaimOfferAtom.sellerID := by
  rcases List.mem_append.mp member with claimed | own
  · exact .inr (party_of_claim claimed)
  · simp only [List.mem_cons, List.not_mem_nil, or_false] at own
    rcases own with rfl | rfl <;> exact .inl rfl

theorem OperationBody.movements_parties (body : OperationBody) (sourceID : AccountID)
    (success : OperationSuccess) (move : Movement)
    (member : move ∈ body.movements sourceID success) :
    move.party ∈ body.parties sourceID success := by
  cases body <;> cases success <;>
    simp only [movements, List.not_mem_nil, List.mem_cons, or_false] at member
  all_goals
    simp only [parties, destination?, OperationSuccess.offersClaimed, Option.toList_some,
      Option.toList_none, List.map_nil, List.cons_append, List.nil_append, List.mem_cons,
      List.not_mem_nil, or_false]
  case PATH_PAYMENT.pathPayment op success =>
    simp only [PathPaymentOp.movements, List.mem_cons, List.mem_append, List.not_mem_nil,
      or_false] at member
    rcases member with rfl | claimed | rfl
    · exact .inr (.inl rfl)
    · exact .inr (.inr (party_of_claim claimed))
    · exact .inl rfl
  case MANAGE_SELL_OFFER.manageOffer => exact party_of_offer member
  case CREATE_PASSIVE_SELL_OFFER.manageOffer => exact party_of_offer member
  case MANAGE_BUY_OFFER.manageOffer => exact party_of_offer member
  all_goals
    rcases member with rfl | rfl
    all_goals simp

def Balanced (moves : List Movement) : Prop := ∀ asset, netSum asset moves = 0

theorem balanced_transfer (sender receiver : AccountID) (asset : Asset) (amount : Int) :
    Balanced [⟨receiver, asset, amount⟩, ⟨sender, asset, -amount⟩] := by
  intro other
  simp only [netSum_cons, netSum_nil]
  split <;> omega

theorem balanced_offer (frame : ManageOfferOpFrame) (claims : List ClaimOfferAtom)
    (pair : OfPair frame claims) : Balanced (offerMovements frame claims) := by
  intro asset
  simp only [offerMovements, netSum_append, netSum_cons, netSum_nil,
    netSum_claims asset frame.sheep frame.wheat claims pair]
  split_ifs <;> omega

/-! ### What an operation that succeeds has done -/

/-- The movements of the operation and nothing else, apart from the zero balance of a
trust line that is erased. -/
def Settles (moves : List Movement) (before after : Ledger) : Prop :=
  Balanced moves ∧ ∃ lost, Follows (moves ++ lost) 0 before after ∧
    (NonNegative before → ∀ asset, storedSum asset lost = 0)

theorem Settles.ofFollows {moves : List Movement} {before after : Ledger}
    (balanced : Balanced moves) (follows : Follows moves 0 before after) :
    Settles moves before after :=
  ⟨balanced, [], by simpa using follows, fun _ _ => rfl⟩

theorem Settles.ofNothing {before after : Ledger} (follows : Follows [] 0 before after) :
    Settles [] before after :=
  Settles.ofFollows (fun _ => rfl) follows

theorem offer_settles (frame : ManageOfferOpFrame) (book : OrderBook) :
    Succeeds (frame.doApply book) ledger fun success after =>
      ∃ result, success = .manageOffer result ∧
        Settles (offerMovements frame result.offersClaimed) ledger after := by
  apply Succeeds.mono (frame.doApply_follows book)
  rintro success after ⟨result, named, follows, pair⟩
  exact ⟨result, named, Settles.ofFollows (balanced_offer frame _ pair) follows⟩

theorem payment_settles (op : PaymentOp) (sourceID : AccountID) (book : OrderBook) :
    Succeeds (op.doApply sourceID book) ledger fun _ after =>
      Settles [⟨op.destination, op.asset, op.amount⟩, ⟨sourceID, op.asset, -op.amount⟩]
        ledger after := by
  by_cases instant : op.destination = sourceID ∧ op.asset = .native
  · unfold PaymentOp.doApply
    rw [if_pos instant]
    apply Succeeds.ok
    apply Settles.ofFollows (balanced_transfer sourceID op.destination op.asset op.amount)
    apply (Follows.refl ledger).congr
    · intro asset
      simp only [storedSum_nil, storedSum_cons, Movement.stored, instant.1]
      split <;> omega
    · intro _
      rfl
  · apply Succeeds.mono (op.doApply_follows sourceID book instant)
    intro _ after follows
    exact Settles.ofFollows (balanced_transfer _ _ _ _) follows

theorem OperationBody.doApply_settles (body : OperationBody) (sourceID : AccountID)
    (book : OrderBook) (valid : body.doCheckValid sourceID ledger.header.ledgerVersion = .ok ()) :
    Succeeds (body.doApply sourceID book) ledger fun success after =>
      Settles (body.movements sourceID success) ledger after := by
  cases body with
  | CREATE_ACCOUNT op =>
      apply Succeeds.mono (op.doApply_follows sourceID)
      intro success after follows
      refine Settles.ofFollows ?_ follows
      intro asset
      have reversed := balanced_transfer sourceID op.destination .native op.startingBalance asset
      simp only [movements, netSum_cons, netSum_nil] at reversed ⊢
      omega
  | PAYMENT op => exact payment_settles op sourceID book
  | PATH_PAYMENT op =>
      apply Ensures.bind (op.doApply_follows sourceID book)
      intro result after follows
      cases result with
      | error code => exact Succeeds.error
      | ok success =>
          apply Succeeds.ok
          exact Settles.ofFollows (follows success rfl).2 (follows success rfl).1
  | MANAGE_SELL_OFFER op =>
      apply Succeeds.mono (offer_settles _ book)
      rintro _ after ⟨result, rfl, settles⟩
      exact settles
  | CREATE_PASSIVE_SELL_OFFER op =>
      apply Succeeds.mono (offer_settles _ book)
      rintro _ after ⟨result, rfl, settles⟩
      exact settles
  | MANAGE_BUY_OFFER op =>
      apply Succeeds.mono (offer_settles _ book)
      rintro _ after ⟨result, rfl, settles⟩
      exact settles
  | SET_OPTIONS op =>
      apply Succeeds.mono (op.doApply_follows sourceID)
      intro success after follows
      exact Settles.ofNothing follows
  | CHANGE_TRUST op =>
      apply Succeeds.mono (op.doApply_follows sourceID)
      rintro success after ⟨lost, follows, zero⟩
      exact ⟨fun _ => rfl, lost, follows, zero⟩
  | ALLOW_TRUST op =>
      apply Succeeds.mono (op.doApply_follows sourceID)
      intro success after follows
      exact Settles.ofNothing follows
  | ACCOUNT_MERGE destination =>
      have different : sourceID ≠ destination := by
        intro same
        simp only [doCheckValid, AccountMerge.doCheckValid, same, if_true] at valid
        cases valid
      apply Succeeds.mono (AccountMerge.doApply_follows sourceID destination different)
      rintro _ after ⟨balance, rfl, follows⟩
      exact Settles.ofFollows (balanced_transfer _ _ _ _) follows
  | INFLATION => exact Succeeds.ok (Settles.ofNothing (Follows.refl ledger))
  | MANAGE_DATA op =>
      apply Succeeds.mono (op.doApply_follows sourceID)
      intro success after follows
      exact Settles.ofNothing follows
  | BUMP_SEQUENCE bumpTo =>
      apply Succeeds.mono (BumpSequence.doApply_follows sourceID bumpTo)
      intro success after follows
      exact Settles.ofNothing follows

theorem Operation.apply_succeeds {env : Environment} {envelope : TransactionEnvelope}
    {op : Operation} {checker : SignatureChecker} {post : OperationSuccess → Ledger → Prop}
    (proved : op.body.doCheckValid (op.getSourceID envelope) ledger.header.ledgerVersion = .ok () →
      Succeeds (op.body.doApply (op.getSourceID envelope) env.book) ledger post) :
    Ensures (op.apply env envelope checker) ledger fun result after =>
      ∀ success, result.2 = .ok success → post success after := by
  have checked : Ensures (op.checkValid env envelope checker true) ledger fun result after =>
      after = ledger ∧ (result.2 = .ok () →
        op.body.doCheckValid (op.getSourceID envelope) ledger.header.ledgerVersion = .ok ()) := by
    unfold Operation.checkValid
    rw [Ensures, wp_rolledBack]
    simp only [wp_bind, wp_loadHeader, wp_ite]
    refine ⟨fun _ => ⟨trivial, fun impossible => by cases impossible⟩, fun _ => ?_⟩
    apply Ensures.mono (ensures_true _)
    rintro ⟨_, result⟩ _ _
    cases result with
    | error code => exact ⟨trivial, fun impossible => by cases impossible⟩
    | ok _ => exact ⟨trivial, fun valid => valid⟩
  unfold Operation.apply
  apply Ensures.bind checked
  rintro ⟨checker', result⟩ start ⟨rfl, valid⟩
  cases result with
  | error code =>
      intro success impossible
      cases impossible
  | ok _ =>
      apply Ensures.bind (proved (valid rfl))
      intro result after holds
      exact holds

theorem Operation.apply_settles {env : Environment} {envelope : TransactionEnvelope}
    {op : Operation} {checker checker' : SignatureChecker} {before after : Ledger}
    {success : OperationSuccess}
    (applied : op.apply env envelope checker before = .ok (checker', .ok success) after) :
    Settles (op.body.movements (op.getSourceID envelope) success) before after := by
  have settles : Ensures (op.apply env envelope checker) before fun result after =>
      ∀ success, result.2 = .ok success →
        Settles (op.body.movements (op.getSourceID envelope) success) before after :=
    Operation.apply_succeeds fun valid =>
      op.body.doApply_settles (op.getSourceID envelope) env.book valid
  rw [Ensures, wp, applied] at settles
  exact settles success rfl

/-! ### Used signers -/

theorem removeFirstSigner_some {header : LedgerHeader} {account updated : AccountEntry}
    {keys : List SignerKey} (removed : removeFirstSigner header account keys = .ok (some updated)) :
    ∃ key ∈ keys, removeAccountSigner header account key = .ok (some updated) := by
  induction keys with
  | nil => cases removed
  | cons key rest ih =>
      unfold removeFirstSigner at removed
      obtain ⟨result, first, removed⟩ := except_bind_ok.mp removed
      cases result with
      | some found =>
          cases removed
          exact ⟨key, List.mem_cons_self, first⟩
      | none =>
          obtain ⟨later, member, found⟩ := ih removed
          exact ⟨later, List.mem_cons_of_mem _ member, found⟩

theorem removeAccountSigner_retains {header : LedgerHeader} {account updated : AccountEntry}
    {key : SignerKey} (removed : removeAccountSigner header account key = .ok (some updated)) :
    SetOptionsOp.Retains account updated := by
  unfold removeAccountSigner at removed
  split at removed
  · rename_i has
    obtain ⟨signer, member, named⟩ := List.any_eq_true.mp has
    obtain ⟨⟨result, entry⟩, counted, removed⟩ := except_bind_ok.mp removed
    obtain ⟨-, same⟩ := assertThat_bind_ok.mp removed
    cases same
    have length : (account.signers.eraseP fun signer => signer.key = key).length =
        account.signers.length - 1 := List.length_eraseP_of_mem member named
    have nonempty : 0 < account.signers.length := List.length_pos_of_mem member
    rcases addNumEntries_ok counted with ⟨-, entries, rfl, sum, -⟩ | ⟨-, -, impossible⟩
    · refine ⟨rfl, le_rfl, ?_, ?_⟩
      · simp only [length]
        omega
      · simp only
        omega
    · omega
  · cases removed

theorem removeFirstSigner_retains {header : LedgerHeader} {account updated : AccountEntry}
    {keys : List SignerKey} (removed : removeFirstSigner header account keys = .ok (some updated)) :
    SetOptionsOp.Retains account (normalizeSigners updated) := by
  obtain ⟨key, -, found⟩ := removeFirstSigner_some removed
  exact (removeAccountSigner_retains found).trans (SetOptionsOp.normalizeSigners_retains updated)

/-! ### Sums of balances -/

def sentBy (party : AccountID) (asset : Asset) (moves : List Movement) : Int :=
  (moves.map fun move =>
    if move.party = party ∧ move.asset = asset then max 0 (-move.amount) else 0).sum

def receivedBy (party : AccountID) (asset : Asset) (moves : List Movement) : Int :=
  (moves.map fun move =>
    if move.party = party ∧ move.asset = asset then max 0 move.amount else 0).sum

theorem storedSum_issuer (asset : Asset) (issuer : AccountID) (moves : List Movement)
    (issued : asset.issuer? = some issuer) :
    storedSum asset moves =
      netSum asset moves + (sentBy issuer asset moves - receivedBy issuer asset moves) := by
  induction moves with
  | nil => rfl
  | cons move rest ih =>
      rw [storedSum_cons, netSum_cons, ih]
      simp only [sentBy, receivedBy, List.map_cons, List.sum_cons, Movement.stored, issued, ne_eq,
        Option.some.injEq, eq_comm (a := issuer)]
      by_cases named : move.asset = asset
      · by_cases own : move.party = issuer
        · simp only [named, own, and_self, not_true_eq_false, and_false, if_true, if_false]
          omega
        · simp only [named, own, not_false_eq_true, and_true, if_true, if_false]
          omega
      · simp only [named, false_and, and_false, if_false]
        omega

theorem storedSum_native (moves : List Movement) : storedSum .native moves = netSum .native moves := by
  induction moves with
  | nil => rfl
  | cons move rest ih => simp [netSum_cons, ih, Movement.stored, Asset.issuer?]

theorem sentBy_absent (party : AccountID) (asset : Asset) (moves : List Movement)
    (absent : ∀ move ∈ moves, move.party ≠ party) :
    sentBy party asset moves = 0 ∧ receivedBy party asset moves = 0 := by
  induction moves with
  | nil => exact ⟨rfl, rfl⟩
  | cons move rest ih =>
      have restZero := ih fun other member => absent other (List.mem_cons_of_mem move member)
      have other := absent move List.mem_cons_self
      simp only [sentBy, receivedBy] at restZero ⊢
      simp [other, restZero]

/-- Nothing is created or lost by an operation, apart from what the issuer of an asset
puts into circulation or takes out of it. -/
theorem apply_conserves (env : Environment) (envelope : TransactionEnvelope) (op : Operation)
    (checker checker' : SignatureChecker) (before after : Ledger) (success : OperationSuccess)
    (_version : 8 ≤ before.header.ledgerVersion) (nonNegative : NonNegative before)
    (applied : op.apply env envelope checker before = .ok (checker', .ok success) after) :
    let sourceID := op.getSourceID envelope
    let moves := op.body.movements sourceID success
    holdings .native after = holdings .native before ∧
    after.header.totalCoins = before.header.totalCoins ∧
    after.header.feePool = before.header.feePool ∧
    ∀ asset issuer, asset.issuer? = some issuer →
      (issuer ∉ op.body.parties sourceID success → holdings asset after = holdings asset before) ∧
      holdings asset after = holdings asset before +
        (sentBy issuer asset moves - receivedBy issuer asset moves) := by
  intro sourceID moves
  obtain ⟨balanced, lost, follows, nothing⟩ := Operation.apply_settles applied
  have changed : ∀ asset, holdings asset after = holdings asset before + storedSum asset moves := by
    intro asset
    rw [follows.moved asset, storedSum_append, nothing nonNegative asset]
    simp only [add_zero]
    rfl
  have issuedChange : ∀ asset issuer, asset.issuer? = some issuer →
      holdings asset after = holdings asset before +
        (sentBy issuer asset moves - receivedBy issuer asset moves) := by
    intro asset issuer issued
    rw [changed asset, storedSum_issuer asset issuer moves issued, balanced asset, zero_add]
  refine ⟨?_, ?_, ?_, ?_⟩
  · rw [changed .native, storedSum_native, balanced .native, add_zero]
  · rw [follows.header]
  · rw [follows.header]
  · intro asset issuer issued
    refine ⟨?_, issuedChange asset issuer issued⟩
    intro uninvolved
    have absent := sentBy_absent issuer asset moves (by
      intro move member same
      apply uninvolved
      rw [← same]
      exact op.body.movements_parties sourceID success move member)
    rw [issuedChange asset issuer issued, absent.1, absent.2]
    simp

/-- An issuer, 1, and an account, 2, with an authorized trust line in the asset of 1. -/
def issuedAsset : Asset := .alphaNum4 (Vector.replicate 4 88) 1

def issuerLedger : Ledger where
  header := { ledgerVersion := 10, closeTime := 0, ledgerSeq := 5, totalCoins := 1000,
              feePool := 0, inflationSeq := 0, idPool := 0, baseFee := 100, baseReserve := 10,
              maxTxSetSize := 50 }
  accounts := (∅ : Map AccountID AccountEntry).insert 1
    { balance := 1000, seqNum := 3, numSubEntries := 0, inflationDest := none, flags := 0,
      homeDomain := [], thresholds := ⟨1, 0, 0, 0⟩, signers := [], ext := none }
    |>.insert 2
    { balance := 1000, seqNum := 3, numSubEntries := 1, inflationDest := none, flags := 0,
      homeDomain := [], thresholds := ⟨1, 0, 0, 0⟩, signers := [], ext := none }
  trustLines := (∅ : Map TrustLineKey TrustLineEntry).insert ⟨2, issuedAsset⟩
    { balance := 7, limit := 100, flags := AUTHORIZED_FLAG, ext := none }
  offers := ∅
  data := ∅

def issuePayment : Operation :=
  { sourceAccount := some 1, body := .PAYMENT ⟨2, issuedAsset, 5⟩ }

def issueEnvelope : TransactionEnvelope :=
  { tx := { sourceAccount := 1, fee := 100, seqNum := 4, timeBounds := none,
            operations := [issuePayment] }
    signatures := [] }

def silentEnvironment : Environment :=
  { crypto := ⟨fun _ _ _ => true, fun _ => 0⟩, contentsHash := fun _ => 0,
    book := ⟨fun _ _ => false⟩ }

/-- The issuer pays 5 of its own asset. -/
theorem apply_conserves_issued :
    ∃ after, issuePayment.apply silentEnvironment issueEnvelope (.ofSignatures 10 0 [])
        issuerLedger = .ok (.ofSignatures 10 0 [], .ok .payment) after ∧
      holdings .native after = holdings .native issuerLedger ∧
      holdings issuedAsset after = holdings issuedAsset issuerLedger + 5 := by
  have nonNegative : NonNegative issuerLedger := by
    intro key line found
    have stored := AList.mem_lookup_iff.mp found
    change _ ∈ [_] at stored
    rw [List.mem_singleton] at stored
    cases stored
    decide
  refine ⟨_, rfl, ?_⟩
  have conserved := apply_conserves silentEnvironment issueEnvelope issuePayment
    (.ofSignatures 10 0 []) (.ofSignatures 10 0 []) issuerLedger _ .payment (by decide) nonNegative rfl
  exact ⟨conserved.1, (conserved.2.2.2 issuedAsset 1 rfl).2⟩

end ViiCore.Transactions
