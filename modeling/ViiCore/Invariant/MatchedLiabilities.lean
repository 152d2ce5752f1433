import ViiCore.Invariant.LiabilitiesMatchOffers

/-!
What a delta that passes the check does to a ledger.

The gap between the liabilities of the offers and the recorded ones is followed through the
entries of the delta. Each entry moves the gap of the ledger exactly as it moves the difference
that the checker adds up, so when all differences end at zero the gap is the one before.
-/

namespace ViiCore.Invariant

open ViiCore.Ledger ViiCore.FiniteMap ViiCore.Transactions ViiCore.Herder

/-! ### Applying a delta -/

def EntryDelta.Follows (entryDelta : EntryDelta) (ledger : Ledger) : Prop :=
  match entryDelta with
  | ACCOUNT accountID _ previous => ledger.accounts.lookup accountID = previous
  | TRUSTLINE key _ _ previous => ledger.trustLines.lookup key = previous
  | OFFER key _ previous => ledger.offers.lookup key = previous
  | DATA key _ previous => ledger.data.lookup key = previous

def EntryDelta.applyTo (entryDelta : EntryDelta) (ledger : Ledger) : Ledger :=
  match entryDelta with
  | ACCOUNT accountID current _ =>
      { ledger with accounts := put ledger.accounts accountID current }
  | TRUSTLINE key _ current _ => { ledger with trustLines := put ledger.trustLines key current }
  | OFFER key current _ => { ledger with offers := put ledger.offers key current }
  | DATA key current _ => { ledger with data := put ledger.data key current }

def applyAll (entries : List EntryDelta) (ledger : Ledger) : Ledger :=
  entries.foldl (fun ledger entryDelta => entryDelta.applyTo ledger) ledger

structure LedgerTxnDelta.From (ltxDelta : LedgerTxnDelta) (before : Ledger) : Prop where
  header : ltxDelta.header.previous = before.header
  entries : ∀ entryDelta ∈ ltxDelta.entry, entryDelta.Follows before

def LedgerTxnDelta.after (ltxDelta : LedgerTxnDelta) (before : Ledger) : Ledger :=
  applyAll ltxDelta.entry { before with header := ltxDelta.header.current }

/-! ### What the claims of the checker mean -/

def amountOf (side : Side) (offer : OfferEntry) : Int :=
  (getOfferLiabilities side offer).toOption.getD 0

/-- What an offer demands of an account in one asset. Issuers do not need any. -/
def demanded (side : Side) (accountID : AccountID) (asset : Asset) (key : OfferKey)
    (offer : OfferEntry) : Int :=
  if side.asset offer = asset ∧ asset.issuer? ≠ some key.sellerID ∧ key.sellerID = accountID then
    amountOf side offer
  else 0

def Matched (ledger : Ledger) : Prop :=
  ∀ side accountID asset, side.of (recordedIn ledger accountID asset) =
    total (demanded side accountID asset) ledger.offers

def HasLiabilities (ext : Option Liabilities) : Prop :=
  (recorded ext).selling > 0 ∨ (recorded ext).buying > 0

def NoneUnauthorized (ledger : Ledger) : Prop :=
  ∀ key trust, ledger.trustLines.lookup key = some trust → HasLiabilities trust.ext →
    isAuthorized trust

structure LeavesRoom (header : LedgerHeader) (account : AccountEntry) : Prop where
  sold : getMinBalance header account.numSubEntries + (recorded account.ext).selling ≤
    account.balance
  bought : (recorded account.ext).buying ≤ INT64_MAX - account.balance

def Raised (current previous : AccountEntry) : Prop :=
  (recorded previous.ext).buying < (recorded current.ext).buying ∨
    (recorded previous.ext).selling < (recorded current.ext).selling

structure Upheld (ltxDelta : LedgerTxnDelta) (before : Ledger) : Prop where
  matched : Matched (ltxDelta.after before)
  authorized : ∀ key issued trust previous,
    .TRUSTLINE key issued (some trust) previous ∈ ltxDelta.entry → HasLiabilities trust.ext →
      isAuthorized trust
  noneUnauthorized : NoneUnauthorized before → NoneUnauthorized (ltxDelta.after before)
  lines : ∀ key issued trust previous,
    .TRUSTLINE key issued (some trust) previous ∈ ltxDelta.entry →
      (recorded trust.ext).selling ≤ trust.balance ∧
        (recorded trust.ext).buying ≤ trust.limit - trust.balance
  accounts : ∀ accountID account previous,
    .ACCOUNT accountID (some account) previous ∈ ltxDelta.entry →
      (∀ old, previous = some old → account.balance < old.balance ∨ Raised account old) →
        LeavesRoom ltxDelta.header.current account

/-! ### The gap of a ledger -/

def gap (side : Side) (ledger : Ledger) (accountID : AccountID) (asset : Asset) : Int :=
  total (demanded side accountID asset) ledger.offers - side.of (recordedIn ledger accountID asset)

theorem matched_iff {ledger : Ledger} :
    Matched ledger ↔ ∀ side accountID asset, gap side ledger accountID asset = 0 := by
  unfold Matched gap
  constructor
  · intro matched side accountID asset
    have same := matched side accountID asset
    omega
  · intro closed side accountID asset
    have zero := closed side accountID asset
    omega

def contribution (side : Side) (accountID : AccountID) (asset : Asset) :
    Option LedgerEntry → Int
  | none => 0
  | some (.ACCOUNT id account) =>
      if id = accountID ∧ asset = .native then -side.of (recorded account.ext) else 0
  | some (.TRUSTLINE key trust) =>
      if key = ⟨accountID, asset⟩ then -side.of (recorded trust.ext) else 0
  | some (.OFFER key offer) => demanded side accountID asset key offer
  | some (.DATA _ _) => 0

section Gap

variable {ledger : Ledger} {side : Side} {accountID : AccountID} {asset : Asset}

theorem recorded_none : side.of (recorded none) = 0 := by
  cases side <;> rfl

theorem gap_account {id : AccountID} {current previous : Option AccountEntry}
    (stored : ledger.accounts.lookup id = previous) :
    gap side { ledger with accounts := put ledger.accounts id current } accountID asset =
      gap side ledger accountID asset +
        contribution side accountID asset (current.map (.ACCOUNT id)) -
        contribution side accountID asset (previous.map (.ACCOUNT id)) := by
  have value (entry : Option AccountEntry) :
      contribution side accountID asset (entry.map (.ACCOUNT id)) =
        if id = accountID ∧ asset = .native then -side.of (recorded (entry.bind AccountEntry.ext))
        else 0 := by
    cases entry with
    | none =>
        split
        · exact (neg_eq_zero.mpr recorded_none).symm
        · rfl
    | some account => rfl
  rw [value, value]
  unfold gap recordedIn
  dsimp only
  by_cases native : asset = .native
  · rw [if_pos native, if_pos native]
    by_cases own : id = accountID
    · subst own
      rw [lookup_put, stored, if_pos ⟨rfl, native⟩, if_pos ⟨rfl, native⟩]
      omega
    · rw [lookup_put_ne (Ne.symm own), if_neg fun both => own both.1, if_neg fun both => own both.1]
      omega
  · rw [if_neg native, if_neg native, if_neg fun both => native both.2,
      if_neg fun both => native both.2]
    omega

theorem gap_trustLine {key : TrustLineKey} (issued : key.asset ≠ .native)
    {current previous : Option TrustLineEntry} (stored : ledger.trustLines.lookup key = previous) :
    gap side { ledger with trustLines := put ledger.trustLines key current } accountID asset =
      gap side ledger accountID asset +
        contribution side accountID asset (current.map (.TRUSTLINE key)) -
        contribution side accountID asset (previous.map (.TRUSTLINE key)) := by
  have value (entry : Option TrustLineEntry) :
      contribution side accountID asset (entry.map (.TRUSTLINE key)) =
        if key = ⟨accountID, asset⟩ then -side.of (recorded (entry.bind TrustLineEntry.ext))
        else 0 := by
    cases entry with
    | none =>
        split
        · exact (neg_eq_zero.mpr recorded_none).symm
        · rfl
    | some trust => rfl
  rw [value, value]
  unfold gap recordedIn
  dsimp only
  by_cases own : key = ⟨accountID, asset⟩
  · subst own
    rw [if_neg issued, if_neg issued, lookup_put, stored, if_pos rfl, if_pos rfl]
    omega
  · rw [lookup_put_ne (Ne.symm own), if_neg own, if_neg own]
    omega

theorem gap_offer {key : OfferKey} {current previous : Option OfferEntry}
    (stored : ledger.offers.lookup key = previous) :
    gap side { ledger with offers := put ledger.offers key current } accountID asset =
      gap side ledger accountID asset +
        contribution side accountID asset (current.map (.OFFER key)) -
        contribution side accountID asset (previous.map (.OFFER key)) := by
  have value (entry : Option OfferEntry) :
      contribution side accountID asset (entry.map (.OFFER key)) =
        (entry.map (demanded side accountID asset key)).getD 0 := by
    cases entry <;> rfl
  have kept : recordedIn { ledger with offers := put ledger.offers key current } accountID asset =
      recordedIn ledger accountID asset := rfl
  rw [value, value, ← stored]
  unfold gap
  rw [kept]
  dsimp only
  rw [total_put]
  unfold share
  omega

theorem gap_applyTo {entryDelta : EntryDelta} (follows : entryDelta.Follows ledger) :
    gap side (entryDelta.applyTo ledger) accountID asset = gap side ledger accountID asset +
      contribution side accountID asset entryDelta.current -
      contribution side accountID asset entryDelta.previous := by
  cases entryDelta with
  | ACCOUNT id current previous => exact gap_account follows
  | TRUSTLINE key issued current previous => exact gap_trustLine issued follows
  | OFFER key current previous => exact gap_offer follows
  | DATA key current previous =>
      have kept : gap side (EntryDelta.applyTo (.DATA key current previous) ledger) accountID asset =
          gap side ledger accountID asset := rfl
      have zero (entry : Option (List UInt8)) :
          contribution side accountID asset (entry.map (.DATA key)) = 0 := by
        cases entry <;> rfl
      have currentZero := zero current
      have previousZero := zero previous
      change _ = _ + contribution side accountID asset (current.map (.DATA key)) -
        contribution side accountID asset (previous.map (.DATA key))
      omega

end Gap

/-! ### The sums of the checker -/

def difference (deltaLiabilities : DeltaLiabilities) (side : Side) (accountID : AccountID)
    (asset : Asset) : Int :=
  side.of ((deltaLiabilities.lookup (accountID, asset)).getD ⟨0, 0⟩)

section Sums

variable {deltaLiabilities deltaLiabilities' : DeltaLiabilities} {side : Side}
  {accountID : AccountID} {asset : Asset}

theorem inInt64_ok {value result : Int} (fits : inInt64 value = .ok result) : result = value := by
  unfold inInt64 at fits
  split at fits
  · cases fits
  · cases fits
    rfl

theorem of_set (set side : Side) (liabilities : Liabilities) (value : Int) :
    side.of (set.set liabilities value) = if side = set then value else side.of liabilities := by
  cases set <;> cases side <;> rfl

theorem addTo_difference {added : Side} {id : AccountID} {other : Asset} {amount : Int}
    (ran : addTo added id other amount deltaLiabilities = .ok deltaLiabilities') :
    difference deltaLiabilities' side accountID asset =
      difference deltaLiabilities side accountID asset +
        if side = added ∧ other = asset ∧ id = accountID then amount else 0 := by
  obtain ⟨value, fits, stored⟩ := except_bind_ok.mp ran
  have sum := inInt64_ok fits
  cases stored
  unfold difference
  by_cases here : (accountID, asset) = (id, other)
  · obtain ⟨rfl, rfl⟩ := Prod.mk.inj here
    rw [AList.lookup_insert, Option.getD_some, of_set]
    by_cases same : side = added
    · subst same
      rw [if_pos rfl, if_pos ⟨rfl, rfl, rfl⟩, sum]
    · rw [if_neg same, if_neg fun all => same all.1, add_zero]
  · rw [AList.lookup_insert_ne here,
      if_neg fun all => here (Prod.ext all.2.2.symm all.2.1.symm), add_zero]

theorem subtractRecorded_difference {sign : Int} {id : AccountID} {other : Asset}
    {ext : Option Liabilities}
    (ran : subtractRecorded sign id other ext deltaLiabilities = .ok deltaLiabilities') :
    difference deltaLiabilities' side accountID asset =
      difference deltaLiabilities side accountID asset +
        sign * if id = accountID ∧ other = asset then -side.of (recorded ext) else 0 := by
  obtain ⟨selling, sellingFits, ran⟩ := except_bind_ok.mp ran
  obtain ⟨sold, addSold, ran⟩ := except_bind_ok.mp ran
  obtain ⟨buying, buyingFits, addBought⟩ := except_bind_ok.mp ran
  rw [addTo_difference addBought, addTo_difference addSold, inInt64_ok sellingFits,
    inInt64_ok buyingFits]
  by_cases here : id = accountID ∧ other = asset
  · rw [if_pos here]
    cases side with
    | buying =>
        rw [if_neg (by simp), if_pos ⟨rfl, here.2, here.1⟩]
        change _ = _ + sign * -(recorded ext).buying
        ring
    | selling =>
        rw [if_pos ⟨rfl, here.2, here.1⟩, if_neg (by simp)]
        change _ = _ + sign * -(recorded ext).selling
        ring
  · rw [if_neg fun all => here ⟨all.2.2, all.2.1⟩, if_neg fun all => here ⟨all.2.2, all.2.1⟩,
      if_neg here]
    ring

theorem addOffered_difference {added : Side} {sign : Int} {key : OfferKey} {offer : OfferEntry}
    (ran : addOffered added sign key offer deltaLiabilities = .ok deltaLiabilities') :
    difference deltaLiabilities' side accountID asset =
      difference deltaLiabilities side accountID asset +
        if side = added then sign * demanded side accountID asset key offer else 0 := by
  unfold addOffered at ran
  by_cases foreign : (added.asset offer).issuer? ≠ some key.sellerID
  · rw [if_pos foreign] at ran
    obtain ⟨amount, computed, ran⟩ := except_bind_ok.mp ran
    obtain ⟨change, fits, ran⟩ := except_bind_ok.mp ran
    have value : amountOf added offer = amount := by
      unfold amountOf
      rw [computed]
      rfl
    rw [addTo_difference ran, inInt64_ok fits, ← value]
    congr 1
    by_cases same : side = added
    · subst same
      rw [if_pos rfl]
      unfold demanded
      by_cases here : side.asset offer = asset ∧ key.sellerID = accountID
      · rw [if_pos ⟨rfl, here⟩, if_pos ⟨here.1, here.1 ▸ foreign, here.2⟩]
      · have notAdded : ¬ (side = side ∧ side.asset offer = asset ∧ key.sellerID = accountID) :=
          fun all => here all.2
        have notDemanded : ¬ (side.asset offer = asset ∧ asset.issuer? ≠ some key.sellerID ∧
            key.sellerID = accountID) := fun all => here ⟨all.1, all.2.2⟩
        rw [if_neg notAdded, if_neg notDemanded, mul_zero]
    · rw [if_neg fun all => same all.1, if_neg same]
  · rw [if_neg foreign] at ran
    cases ran
    by_cases same : side = added
    · subst same
      have nothing : demanded side accountID asset key offer = 0 := by
        unfold demanded
        apply if_neg
        intro ⟨same, elsewhere, _⟩
        subst same
        exact foreign elsewhere
      rw [if_pos rfl, nothing, mul_zero, add_zero]
    · rw [if_neg same, add_zero]

theorem addOrSubtractLiabilities_difference {entry : Option LedgerEntry} {isAdd : Bool}
    (ran : addOrSubtractLiabilities entry isAdd deltaLiabilities = .ok deltaLiabilities') :
    difference deltaLiabilities' side accountID asset =
      difference deltaLiabilities side accountID asset +
        (if isAdd then 1 else -1) * contribution side accountID asset entry := by
  unfold addOrSubtractLiabilities at ran
  cases entry with
  | none =>
      cases ran
      change _ = _ + _ * 0
      rw [mul_zero, add_zero]
  | some entry =>
      cases entry with
      | ACCOUNT id account =>
          rw [subtractRecorded_difference ran]
          unfold contribution
          simp only [eq_comm]
      | TRUSTLINE key trust =>
          rw [subtractRecorded_difference ran]
          unfold contribution
          have same : key = ⟨accountID, asset⟩ ↔ key.accountID = accountID ∧ key.asset = asset := by
            cases key
            simp
          simp only [same]
      | OFFER key offer =>
          obtain ⟨sold, addSold, addBought⟩ := except_bind_ok.mp ran
          rw [addOffered_difference addBought, addOffered_difference addSold]
          unfold contribution
          have buying : Side.buying ≠ Side.selling := by simp
          cases side with
          | buying =>
              rw [if_neg buying, if_pos rfl, add_zero]
          | selling =>
              rw [if_pos rfl, if_neg buying.symm, add_zero]
      | DATA key value =>
          cases ran
          change _ = _ + _ * 0
          rw [mul_zero, add_zero]

theorem accumulateLiabilities_difference {current previous : Option LedgerEntry}
    (ran : accumulateLiabilities current previous deltaLiabilities = .ok deltaLiabilities') :
    difference deltaLiabilities' side accountID asset =
      difference deltaLiabilities side accountID asset +
        contribution side accountID asset current - contribution side accountID asset previous := by
  obtain ⟨added, addCurrent, subtractPrevious⟩ := except_bind_ok.mp ran
  rw [addOrSubtractLiabilities_difference subtractPrevious,
    addOrSubtractLiabilities_difference addCurrent, if_pos rfl, if_neg (by simp)]
  ring

theorem checkDifferences_zero (passes : checkDifferences deltaLiabilities = none) :
    difference deltaLiabilities side accountID asset = 0 := by
  unfold difference
  cases found : deltaLiabilities.lookup (accountID, asset) with
  | none =>
      change side.of ⟨0, 0⟩ = 0
      cases side <;> rfl
  | some liabilities =>
      have fine := List.findSome?_eq_none_iff.mp passes ⟨(accountID, asset), liabilities⟩
        (AList.mem_lookup_iff.mp found)
      dsimp only at fine
      split at fine
      · cases fine
      · rename_i buying
        split at fine
        · cases fine
        · rename_i selling
          cases side with
          | buying => exact not_not.mp buying
          | selling => exact not_not.mp selling

end Sums

/-! ### The loops -/

theorem EntryDelta.Follows.applyTo {first entryDelta : EntryDelta} {ledger : Ledger}
    (different : first.key ≠ entryDelta.key) (follows : entryDelta.Follows ledger) :
    entryDelta.Follows (first.applyTo ledger) := by
  cases first with
  | ACCOUNT id current previous =>
      cases entryDelta with
      | ACCOUNT other current' previous' =>
          have apart : other ≠ id := fun same => different (congrArg LedgerKey.ACCOUNT same.symm)
          exact (lookup_put_ne apart current).trans follows
      | TRUSTLINE key issued current' previous' => exact follows
      | OFFER key current' previous' => exact follows
      | DATA key current' previous' => exact follows
  | TRUSTLINE key issued current previous =>
      cases entryDelta with
      | ACCOUNT other current' previous' => exact follows
      | TRUSTLINE other issued' current' previous' =>
          have apart : other ≠ key := fun same => different (congrArg LedgerKey.TRUSTLINE same.symm)
          exact (lookup_put_ne apart current).trans follows
      | OFFER key current' previous' => exact follows
      | DATA key current' previous' => exact follows
  | OFFER key current previous =>
      cases entryDelta with
      | ACCOUNT other current' previous' => exact follows
      | TRUSTLINE other issued' current' previous' => exact follows
      | OFFER other current' previous' =>
          have apart : other ≠ key := fun same => different (congrArg LedgerKey.OFFER same.symm)
          exact (lookup_put_ne apart current).trans follows
      | DATA key current' previous' => exact follows
  | DATA key current previous =>
      cases entryDelta with
      | ACCOUNT other current' previous' => exact follows
      | TRUSTLINE other issued' current' previous' => exact follows
      | OFFER other current' previous' => exact follows
      | DATA other current' previous' =>
          have apart : other ≠ key := fun same => different (congrArg LedgerKey.DATA same.symm)
          exact (lookup_put_ne apart current).trans follows

theorem accumulateAll_gap {entries : List EntryDelta} {ledger : Ledger}
    {deltaLiabilities result : DeltaLiabilities} (distinct : (entries.map EntryDelta.key).Nodup)
    (follows : ∀ entryDelta ∈ entries, entryDelta.Follows ledger)
    (even : ∀ side accountID asset,
      gap side ledger accountID asset = difference deltaLiabilities side accountID asset)
    (ran : accumulateAll entries deltaLiabilities = .ok (.ok result)) :
    ∀ side accountID asset, gap side (applyAll entries ledger) accountID asset =
      difference result side accountID asset := by
  induction entries generalizing ledger deltaLiabilities with
  | nil =>
      cases ran
      exact even
  | cons entryDelta rest ih =>
      obtain ⟨fresh, restDistinct⟩ := List.nodup_cons.mp distinct
      unfold accumulateAll at ran
      split at ran
      · cases ran
      · obtain ⟨next, accumulated, restRan⟩ := except_bind_ok.mp ran
        have followsFirst := follows entryDelta List.mem_cons_self
        have followsRest : ∀ later ∈ rest, later.Follows (entryDelta.applyTo ledger) := by
          intro later member
          have apart : entryDelta.key ≠ later.key :=
            fun same => fresh (List.mem_map.mpr ⟨later, member, same.symm⟩)
          exact (follows later (List.mem_cons_of_mem _ member)).applyTo apart
        have evenNext : ∀ side accountID asset,
            gap side (entryDelta.applyTo ledger) accountID asset =
              difference next side accountID asset := by
          intro side accountID asset
          rw [gap_applyTo followsFirst, accumulateLiabilities_difference accumulated,
            even side accountID asset]
        exact ih restDistinct followsRest evenNext restRan

theorem accumulateAll_authorized {entries : List EntryDelta}
    {deltaLiabilities result : DeltaLiabilities}
    (ran : accumulateAll entries deltaLiabilities = .ok (.ok result)) :
    ∀ entryDelta ∈ entries, checkAuthorized entryDelta.current = none := by
  induction entries generalizing deltaLiabilities with
  | nil =>
      intro entryDelta impossible
      cases impossible
  | cons first rest ih =>
      unfold accumulateAll at ran
      split at ran
      · cases ran
      · rename_i authorized
        obtain ⟨next, _, restRan⟩ := except_bind_ok.mp ran
        intro entryDelta member
        rcases List.mem_cons.mp member with same | later
        · rw [same]
          exact authorized
        · exact ih restRan entryDelta later

theorem checkBalances_none {header : LedgerHeader} {ledgerVersion : Nat}
    {entries : List EntryDelta} (passes : checkBalances header ledgerVersion entries = .ok none) :
    ∀ entryDelta ∈ entries, checkBalanceAndLimit header entryDelta ledgerVersion = .ok none := by
  induction entries with
  | nil =>
      intro entryDelta impossible
      cases impossible
  | cons first rest ih =>
      obtain ⟨outcome, checked, restPasses⟩ := except_bind_ok.mp passes
      cases outcome with
      | some violation => cases restPasses
      | none =>
          intro entryDelta member
          rcases List.mem_cons.mp member with same | later
          · rw [same]
            exact checked
          · exact ih restPasses entryDelta later

/-! ### Single entries -/

theorem checkAuthorized_none {key : TrustLineKey} {trust : TrustLineEntry}
    (passes : checkAuthorized (some (.TRUSTLINE key trust)) = none)
    (liabilities : HasLiabilities trust.ext) : isAuthorized trust = true := by
  unfold checkAuthorized at passes
  by_cases authorized : isAuthorized trust = true
  · exact authorized
  · dsimp only at passes
    rw [if_pos ⟨authorized, liabilities⟩] at passes
    cases passes

section Balances

variable {header : LedgerHeader} {ledgerVersion : Nat}

theorem shouldCheckAccount_iff {account : AccountEntry} {previous : Option AccountEntry} :
    shouldCheckAccount account previous ledgerVersion = true ↔
      ∀ old, previous = some old → account.balance < old.balance := by
  unfold shouldCheckAccount
  cases previous with
  | none => simp
  | some old => simp

theorem countedLiabilities_eq (version : 10 ≤ ledgerVersion) (ext : Option Liabilities) :
    countedLiabilities ledgerVersion ext = recorded ext :=
  if_pos version

theorem checkBalanceAndLimit_account {accountID : AccountID} {account : AccountEntry}
    {previous : Option AccountEntry} (version : 10 ≤ ledgerVersion)
    (passes : checkBalanceAndLimit header (.ACCOUNT accountID (some account) previous)
      ledgerVersion = .ok none)
    (checked : ∀ old, previous = some old → account.balance < old.balance) :
    LeavesRoom header account := by
  unfold checkBalanceAndLimit at passes
  dsimp only at passes
  rw [if_pos (shouldCheckAccount_iff.mpr checked), countedLiabilities_eq version] at passes
  obtain ⟨minBalance, minFits, passes⟩ := except_bind_ok.mp passes
  obtain ⟨needed, neededFits, passes⟩ := except_bind_ok.mp passes
  have minValue := inInt64_ok minFits
  have neededValue := inInt64_ok neededFits
  split at passes
  · cases passes
  · rename_i sold
    obtain ⟨room, roomFits, passes⟩ := except_bind_ok.mp passes
    have roomValue := inInt64_ok roomFits
    split at passes
    · cases passes
    · rename_i bought
      exact ⟨by omega, by omega⟩

theorem checkBalanceAndLimit_trustLine {key : TrustLineKey} {issued : key.asset ≠ .native}
    {trust : TrustLineEntry} {previous : Option TrustLineEntry} (version : 10 ≤ ledgerVersion)
    (passes : checkBalanceAndLimit header (.TRUSTLINE key issued (some trust) previous)
      ledgerVersion = .ok none) :
    (recorded trust.ext).selling ≤ trust.balance ∧
      (recorded trust.ext).buying ≤ trust.limit - trust.balance := by
  unfold checkBalanceAndLimit at passes
  dsimp only at passes
  rw [countedLiabilities_eq version] at passes
  split at passes
  · cases passes
  · rename_i sold
    obtain ⟨room, roomFits, passes⟩ := except_bind_ok.mp passes
    have roomValue := inInt64_ok roomFits
    split at passes
    · cases passes
    · rename_i bought
      exact ⟨by omega, by omega⟩

end Balances

/-! ### The delta as a whole -/

theorem applyAll_trustLine (entries : List EntryDelta) (ledger : Ledger) (key : TrustLineKey) :
    (applyAll entries ledger).trustLines.lookup key = ledger.trustLines.lookup key ∨
      ∃ issued previous, .TRUSTLINE key issued
        ((applyAll entries ledger).trustLines.lookup key) previous ∈ entries := by
  induction entries generalizing ledger with
  | nil => exact Or.inl rfl
  | cons first rest ih =>
      have step : applyAll (first :: rest) ledger = applyAll rest (first.applyTo ledger) := rfl
      rw [step]
      rcases ih (first.applyTo ledger) with kept | ⟨issued, previous, member⟩
      · rw [kept]
        cases first with
        | ACCOUNT id current previous => exact Or.inl rfl
        | OFFER other current previous => exact Or.inl rfl
        | DATA other current previous => exact Or.inl rfl
        | TRUSTLINE other issued current previous =>
            by_cases same : key = other
            · subst same
              have stored : (put ledger.trustLines key current).lookup key = current :=
                lookup_put ledger.trustLines key current
              exact Or.inr ⟨issued, previous, stored.symm ▸ List.mem_cons_self⟩
            · exact Or.inl (lookup_put_ne same current)
      · exact Or.inr ⟨issued, previous, List.mem_cons_of_mem _ member⟩

theorem checkOnOperationApply_none {ltxDelta : LedgerTxnDelta}
    (version : 10 ≤ ltxDelta.header.current.ledgerVersion)
    (passes : checkOnOperationApply ltxDelta = .ok none) :
    ∃ deltaLiabilities, accumulateAll ltxDelta.entry ∅ = .ok (.ok deltaLiabilities) ∧
      checkDifferences deltaLiabilities = none ∧
      checkBalances ltxDelta.header.current ltxDelta.header.current.ledgerVersion
        ltxDelta.entry = .ok none := by
  unfold checkOnOperationApply at passes
  dsimp only at passes
  rw [if_pos version] at passes
  obtain ⟨outcome, checked, passes⟩ := except_bind_ok.mp passes
  cases outcome with
  | some violation => cases passes
  | none =>
      obtain ⟨sums, accumulated, differences⟩ := except_bind_ok.mp checked
      cases sums with
      | error violation => cases differences
      | ok deltaLiabilities =>
          have zero : checkDifferences deltaLiabilities = none := Except.ok.inj differences
          exact ⟨deltaLiabilities, accumulated, zero, passes⟩

/-- A delta that passes upholds everything, except that accounts whose liabilities went up while
their balance did not go down are not looked at. -/
theorem checkOnOperationApply_upheld_iff {ltxDelta : LedgerTxnDelta} {before : Ledger}
    (follows : ltxDelta.From before) (version : 10 ≤ ltxDelta.header.current.ledgerVersion)
    (matched : Matched before) (passes : checkOnOperationApply ltxDelta = .ok none) :
    Upheld ltxDelta before ↔
      ∀ accountID account old, .ACCOUNT accountID (some account) (some old) ∈ ltxDelta.entry →
        old.balance ≤ account.balance → Raised account old →
          LeavesRoom ltxDelta.header.current account := by
  obtain ⟨deltaLiabilities, accumulated, zero, balances⟩ :=
    checkOnOperationApply_none version passes
  have checked := checkBalances_none balances
  have authorized : ∀ key issued trust previous,
      .TRUSTLINE key issued (some trust) previous ∈ ltxDelta.entry → HasLiabilities trust.ext →
        isAuthorized trust = true := by
    intro key issued trust previous member
    exact checkAuthorized_none (accumulateAll_authorized accumulated _ member)
  constructor
  · intro upheld accountID account old member _ raised
    apply upheld.accounts accountID account (some old) member
    intro other same
    cases same
    exact Or.inr raised
  · intro covered
    refine ⟨?_, authorized, ?_, ?_, ?_⟩
    · have closed : ∀ side accountID asset,
          gap side { before with header := ltxDelta.header.current } accountID asset =
            difference ∅ side accountID asset := by
        intro side accountID asset
        have none : difference ∅ side accountID asset = 0 := by
          cases side <;> rfl
        rw [none]
        exact matched_iff.mp matched side accountID asset
      have followsAll : ∀ entryDelta ∈ ltxDelta.entry,
          entryDelta.Follows { before with header := ltxDelta.header.current } := by
        intro entryDelta member
        have previous := follows.entries entryDelta member
        cases entryDelta <;> exact previous
      have even := accumulateAll_gap ltxDelta.distinct followsAll closed accumulated
      apply matched_iff.mpr
      intro side accountID asset
      exact (even side accountID asset).trans (checkDifferences_zero zero)
    · intro none key trust found liabilities
      rcases applyAll_trustLine ltxDelta.entry { before with header := ltxDelta.header.current }
        key with kept | ⟨issued, previous, member⟩
      · exact none key trust (kept.symm.trans found) liabilities
      · have current : (applyAll ltxDelta.entry
            { before with header := ltxDelta.header.current }).trustLines.lookup key =
              some trust := found
        rw [current] at member
        exact authorized key issued trust previous member liabilities
    · intro key issued trust previous member
      exact checkBalanceAndLimit_trustLine version (checked _ member)
    · intro accountID account previous member due
      by_cases seen : ∀ old, previous = some old → account.balance < old.balance
      · exact checkBalanceAndLimit_account version (checked _ member) seen
      · push Not at seen
        obtain ⟨old, rfl, notLess⟩ := seen
        rcases due old rfl with less | raised
        · omega
        · exact covered accountID account old member notLess raised

/-! ### An account that places an offer -/

def coin : Asset := .alphaNum4 (Vector.replicate 4 67) 2

/-- The account has a trust line, and with the offer a second sub-entry. -/
def placer (balance : Int) (numSubEntries : Nat) (ext : Option Liabilities) : AccountEntry :=
  { balance, seqNum := 3, numSubEntries, inflationDest := none, flags := 0, homeDomain := [],
    thresholds := ⟨1, 0, 0, 0⟩, signers := [], ext }

def placerLine (ext : Option Liabilities) : TrustLineEntry :=
  { balance := 0, limit := 1000, flags := AUTHORIZED_FLAG, ext }

def placedOffer : OfferEntry :=
  { selling := .native, buying := coin, amount := 100, price := ⟨1, 1⟩, flags := 0 }

def beforePlacing (balance : Int) : Ledger where
  header := { ledgerVersion := 11, closeTime := 0, ledgerSeq := 5, totalCoins := 1000, feePool := 0,
              inflationSeq := 0, idPool := 1, baseFee := 100, baseReserve := 10, maxTxSetSize := 50 }
  accounts := (∅ : Map AccountID AccountEntry).insert 1 (placer balance 1 none)
  trustLines := (∅ : Map TrustLineKey TrustLineEntry).insert ⟨1, coin⟩ (placerLine none)
  offers := ∅
  data := ∅

def placing (balance : Int) : LedgerTxnDelta where
  header := ⟨(beforePlacing balance).header, (beforePlacing balance).header⟩
  entry := [.ACCOUNT 1 (some (placer balance 2 (some ⟨0, 100⟩))) (some (placer balance 1 none)),
    .TRUSTLINE ⟨1, coin⟩ (by decide) (some (placerLine (some ⟨100, 0⟩))) (some (placerLine none)),
    .OFFER ⟨1, 1⟩ (some placedOffer) none]
  distinct := by
    simp [EntryDelta.key]

theorem placing_from (balance : Int) : (placing balance).From (beforePlacing balance) where
  header := rfl
  entries := by
    intro entryDelta member
    change entryDelta ∈ [_, _, _] at member
    simp only [List.mem_cons, List.not_mem_nil, or_false] at member
    rcases member with rfl | rfl | rfl <;> rfl

theorem beforePlacing_matched (balance : Int) : Matched (beforePlacing balance) := by
  intro side accountID asset
  have nothing : recordedIn (beforePlacing balance) accountID asset = ⟨0, 0⟩ := by
    unfold recordedIn
    by_cases native : asset = .native
    · rw [if_pos native]
      by_cases own : accountID = 1
      · subst own
        rfl
      · have absent : (beforePlacing balance).accounts.lookup accountID = none :=
          AList.lookup_insert_ne own
        rw [absent]
        rfl
    · rw [if_neg native]
      by_cases own : (⟨accountID, asset⟩ : TrustLineKey) = ⟨1, coin⟩
      · rw [own]
        rfl
      · have absent : (beforePlacing balance).trustLines.lookup ⟨accountID, asset⟩ = none :=
          AList.lookup_insert_ne own
        rw [absent]
        rfl
  rw [nothing]
  cases side <;> rfl

/-- With its reserve of 30 alone it passes and is overcommitted. -/
theorem placing_reserve : (placing 30).From (beforePlacing 30) ∧
    10 ≤ (placing 30).header.current.ledgerVersion ∧ Matched (beforePlacing 30) ∧
    checkOnOperationApply (placing 30) = .ok none ∧ ¬ Upheld (placing 30) (beforePlacing 30) := by
  refine ⟨placing_from 30, by decide, beforePlacing_matched 30, rfl, ?_⟩
  intro upheld
  have covered := upheld.accounts 1 (placer 30 2 (some ⟨0, 100⟩)) (some (placer 30 1 none))
    List.mem_cons_self (by
      intro old same
      cases same
      exact Or.inr (Or.inr (by decide)))
  exact absurd covered.sold (by decide)

theorem checkOnOperationApply_upheld_iff_placing : Upheld (placing 140) (beforePlacing 140) := by
  apply (checkOnOperationApply_upheld_iff (placing_from 140) (by decide)
    (beforePlacing_matched 140) rfl).mpr
  intro accountID account old member _ _
  change _ ∈ [_, _, _] at member
  simp only [List.mem_cons, List.not_mem_nil, or_false] at member
  rcases member with same | same | same
  · cases same
    exact ⟨by decide, by decide⟩
  · cases same
  · cases same

end ViiCore.Invariant
