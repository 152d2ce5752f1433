import ViiCore.Herder.SurvivingOffers

/-!
What `prepareLiabilities` makes of a ledger.

The recorded liabilities in an asset are brought to the sum over the surviving offers only where a
surviving offer mentions the asset, and on an account that is below its reserve the selling
liabilities cannot be changed at all, not even to zero.
-/

namespace ViiCore.Herder

open ViiCore.Ledger ViiCore.FiniteMap ViiCore.Execution ViiCore.Transactions

/-! ### Recording on one entry -/

section Entries

variable {header : LedgerHeader} {account : AccountEntry} {line : TrustLineEntry} {delta : Int}

theorem getBuyingLiabilities_eq (version : 10 ≤ header.ledgerVersion) (ext : Option Liabilities) :
    getBuyingLiabilities header ext = .ok (recorded ext).buying := by
  have late : ¬ header.ledgerVersion < 10 := by omega
  unfold getBuyingLiabilities getLiabilities
  rw [if_neg late]
  rfl

theorem getSellingLiabilities_eq (version : 10 ≤ header.ledgerVersion) (ext : Option Liabilities) :
    getSellingLiabilities header ext = .ok (recorded ext).selling := by
  have late : ¬ header.ledgerVersion < 10 := by omega
  unfold getSellingLiabilities getLiabilities
  rw [if_neg late]
  rfl

theorem addBuyingLiabilitiesToAccount_eq (version : 10 ≤ header.ledgerVersion)
    (old : 0 ≤ (recorded account.ext).buying) (room : 0 ≤ INT64_MAX - account.balance)
    (nonneg : 0 ≤ (recorded account.ext).buying + delta)
    (fits : (recorded account.ext).buying + delta ≤ INT64_MAX - account.balance) :
    ∃ updated, addBuyingLiabilitiesToAccount header account delta = .ok (some updated) := by
  unfold addBuyingLiabilitiesToAccount
  rw [getBuyingLiabilities_eq version]
  change ∃ updated, (if delta = 0 then _ else _) = _
  split
  · exact ⟨account, rfl⟩
  · rw [addToBalance_eq old room nonneg fits]
    exact ⟨_, rfl⟩

theorem addSellingLiabilitiesToAccount_eq (version : 10 ≤ header.ledgerVersion)
    (old : 0 ≤ (recorded account.ext).selling)
    (room : 0 ≤ account.balance - getMinBalance header account.numSubEntries)
    (nonneg : 0 ≤ (recorded account.ext).selling + delta)
    (fits : (recorded account.ext).selling + delta ≤
      account.balance - getMinBalance header account.numSubEntries) :
    ∃ updated, addSellingLiabilitiesToAccount header account delta = .ok (some updated) := by
  unfold addSellingLiabilitiesToAccount
  rw [getSellingLiabilities_eq version]
  change ∃ updated, (if delta = 0 then _ else _) = _
  split
  · exact ⟨account, rfl⟩
  · dsimp only
    rw [if_neg (by omega), addToBalance_eq old room nonneg fits]
    exact ⟨_, rfl⟩

theorem addSellingLiabilitiesToAccount_below (version : 10 ≤ header.ledgerVersion)
    (below : account.balance - getMinBalance header account.numSubEntries < 0) (delta : Int) :
    addSellingLiabilitiesToAccount header account delta =
      .ok (if delta = 0 then some account else none) := by
  unfold addSellingLiabilitiesToAccount
  rw [getSellingLiabilities_eq version]
  change (if delta = 0 then _ else _) = _
  split
  · rfl
  · rfl

theorem addBuyingLiabilitiesToTrustLine_eq (version : 10 ≤ header.ledgerVersion)
    (authorized : isAuthorized line = true) (old : 0 ≤ (recorded line.ext).buying)
    (room : 0 ≤ line.limit - line.balance) (nonneg : 0 ≤ (recorded line.ext).buying + delta)
    (fits : (recorded line.ext).buying + delta ≤ line.limit - line.balance) :
    ∃ updated, addBuyingLiabilitiesToTrustLine header line delta = .ok (some updated) := by
  unfold addBuyingLiabilitiesToTrustLine
  rw [getBuyingLiabilities_eq version]
  change ∃ updated, (if delta = 0 then _ else _) = _
  split
  · exact ⟨line, rfl⟩
  · rw [addToBalance_eq old room nonneg fits]
    exact ⟨_, rfl⟩

theorem addSellingLiabilitiesToTrustLine_eq (version : 10 ≤ header.ledgerVersion)
    (authorized : isAuthorized line = true) (old : 0 ≤ (recorded line.ext).selling)
    (room : 0 ≤ line.balance) (nonneg : 0 ≤ (recorded line.ext).selling + delta)
    (fits : (recorded line.ext).selling + delta ≤ line.balance) :
    ∃ updated, addSellingLiabilitiesToTrustLine header line delta = .ok (some updated) := by
  unfold addSellingLiabilitiesToTrustLine
  rw [getSellingLiabilities_eq version]
  change ∃ updated, (if delta = 0 then _ else _) = _
  split
  · exact ⟨line, rfl⟩
  · rw [addToBalance_eq old room nonneg fits]
    exact ⟨_, rfl⟩

end Entries

section Updates

variable {ledger : Ledger} {accountID : AccountID} {asset : Asset}

theorem updateAccount_stores {account updated : AccountEntry}
    (compute : LedgerHeader → AccountEntry → Except Fault (Option AccountEntry))
    (found : ledger.accounts.lookup accountID = some account)
    (ran : compute ledger.header account = .ok (some updated)) :
    updateAccount accountID compute ledger =
      .ok true { ledger with accounts := ledger.accounts.insert accountID updated } := by
  have header : loadHeader ledger = .ok ledger.header ledger := rfl
  have current : accountTable.current accountID ledger = .ok account ledger := current_ok found
  have done : computed (compute ledger.header account) ledger = .ok (some updated) ledger := by
    rw [ran]
    rfl
  unfold updateAccount
  rw [bind_of_ok header, bind_of_ok current, bind_of_ok done]
  rfl

theorem updateAccount_refuses {account : AccountEntry}
    (compute : LedgerHeader → AccountEntry → Except Fault (Option AccountEntry))
    (found : ledger.accounts.lookup accountID = some account)
    (ran : compute ledger.header account = .ok none) :
    updateAccount accountID compute ledger = .ok false ledger := by
  have header : loadHeader ledger = .ok ledger.header ledger := rfl
  have current : accountTable.current accountID ledger = .ok account ledger := current_ok found
  have done : computed (compute ledger.header account) ledger = .ok none ledger := by
    rw [ran]
    rfl
  unfold updateAccount
  rw [bind_of_ok header, bind_of_ok current, bind_of_ok done]
  rfl

theorem loadTrustLine_line {line : TrustLineEntry} (credit : asset ≠ .native)
    (foreign : asset.issuer? ≠ some accountID)
    (found : ledger.trustLines.lookup ⟨accountID, asset⟩ = some line) :
    loadTrustLine accountID asset ledger = .ok (some (.nonIssuer line)) ledger := by
  rw [loadTrustLine_eq credit, if_neg foreign, found]
  rfl

theorem updateTrustLine_stores {line updated : TrustLineEntry}
    (compute : LedgerHeader → TrustLineEntry → Except Fault (Option TrustLineEntry))
    (credit : asset ≠ .native) (foreign : asset.issuer? ≠ some accountID)
    (found : ledger.trustLines.lookup ⟨accountID, asset⟩ = some line)
    (ran : compute ledger.header line = .ok (some updated)) :
    updateTrustLine accountID asset compute ledger =
      .ok true
        { ledger with trustLines := ledger.trustLines.insert ⟨accountID, asset⟩ updated } := by
  have header : loadHeader ledger = .ok ledger.header ledger := rfl
  have loaded := loadTrustLine_line credit foreign found
  have done : computed (compute ledger.header line) ledger = .ok (some updated) ledger := by
    rw [ran]
    rfl
  unfold updateTrustLine
  rw [bind_of_ok header, bind_of_ok loaded]
  change (computed (compute ledger.header line) >>= _) ledger = _
  rw [bind_of_ok done]
  rfl

theorem orThrow_true {action : Apply Bool} {what : String} {after : Ledger}
    (ran : action ledger = .ok true after) : orThrow action what ledger = .ok () after := by
  unfold orThrow
  rw [bind_of_ok ran]
  rfl

theorem orThrow_false {action : Apply Bool} (what : String) {after : Ledger}
    (ran : action ledger = .ok false after) :
    orThrow action what ledger = .error (.runtimeError what) after := by
  unfold orThrow
  rw [bind_of_ok ran]
  rfl

end Updates

/-! ### Recording on a ledger -/

def bareAccount (account : AccountEntry) : AccountEntry := { account with ext := none }

def bareLine (line : TrustLineEntry) : TrustLineEntry := { line with ext := none }

theorem bareAccount_eq {updated account : AccountEntry}
    (same : bareAccount updated = bareAccount account) :
    updated = { account with ext := updated.ext } := by
  cases updated
  cases account
  simp only [bareAccount, AccountEntry.mk.injEq] at same
  simp [same]

theorem bareLine_eq {updated line : TrustLineEntry} (same : bareLine updated = bareLine line) :
    updated = { line with ext := updated.ext } := by
  cases updated
  cases line
  simp only [bareLine, TrustLineEntry.mk.injEq] at same
  simp [same]

/-- Two ledgers that differ only in the liabilities recorded for one account. -/
structure Rerecorded (accountID : AccountID) (changes : Asset → Option Liabilities)
    (before after : Ledger) : Prop where
  header : after.header = before.header
  offers : after.offers = before.offers
  accounts : ∀ other, (after.accounts.lookup other).map bareAccount =
    (before.accounts.lookup other).map bareAccount
  lines : ∀ key, (after.trustLines.lookup key).map bareLine =
    (before.trustLines.lookup key).map bareLine
  otherAccounts : ∀ other, other ≠ accountID →
    after.accounts.lookup other = before.accounts.lookup other
  otherLines : ∀ key : TrustLineKey, key.accountID ≠ accountID →
    after.trustLines.lookup key = before.trustLines.lookup key
  liabilities : ∀ other asset, recordedIn after other asset =
    if other = accountID then (changes asset).getD (recordedIn before other asset)
    else recordedIn before other asset

theorem Rerecorded.refl (accountID : AccountID) (ledger : Ledger) :
    Rerecorded accountID (fun _ => none) ledger ledger where
  header := rfl
  offers := rfl
  accounts := fun _ => rfl
  lines := fun _ => rfl
  otherAccounts := fun _ _ => rfl
  otherLines := fun _ _ => rfl
  liabilities := by
    intro other asset
    split <;> rfl

theorem rerecorded_account {ledger : Ledger} {accountID : AccountID} {account : AccountEntry}
    (found : ledger.accounts.lookup accountID = some account) (ext : Option Liabilities) :
    Rerecorded accountID (fun asset => if asset = .native then some (recorded ext) else none) ledger
      { ledger with accounts := ledger.accounts.insert accountID { account with ext } } where
  header := rfl
  offers := rfl
  accounts := by
    intro other
    by_cases same : other = accountID
    · subst same
      dsimp only
      rw [AList.lookup_insert, found]
      rfl
    · dsimp only
      rw [AList.lookup_insert_ne same]
  lines := fun _ => rfl
  otherAccounts := fun _ different => AList.lookup_insert_ne different
  otherLines := fun _ _ => rfl
  liabilities := by
    intro other asset
    unfold recordedIn
    by_cases native : asset = .native
    · by_cases same : other = accountID
      · subst same
        simp [native]
      · simp [native, same]
    · simp [native]

theorem rerecorded_line {ledger : Ledger} {accountID : AccountID} {asset : Asset}
    {line : TrustLineEntry} (credit : asset ≠ .native)
    (found : ledger.trustLines.lookup ⟨accountID, asset⟩ = some line) (ext : Option Liabilities) :
    Rerecorded accountID (fun other => if other = asset then some (recorded ext) else none) ledger
      { ledger with
        trustLines := ledger.trustLines.insert ⟨accountID, asset⟩ { line with ext } } where
  header := rfl
  offers := rfl
  accounts := fun _ => rfl
  lines := by
    intro key
    by_cases same : key = ⟨accountID, asset⟩
    · subst same
      dsimp only
      rw [AList.lookup_insert, found]
      rfl
    · dsimp only
      rw [AList.lookup_insert_ne same]
  otherAccounts := fun _ _ => rfl
  otherLines := by
    intro key different
    apply AList.lookup_insert_ne
    intro same
    rw [same] at different
    exact different rfl
  liabilities := by
    intro other found'
    unfold recordedIn
    by_cases native : found' = .native
    · have different : ¬ found' = asset := fun same => credit (same.symm.trans native)
      simp only [native, if_true]
      have different' : ¬ Asset.native = asset := fun same => credit same.symm
      simp [different']
    · by_cases same : (⟨other, found'⟩ : TrustLineKey) = ⟨accountID, asset⟩
      · cases same
        simp [native]
      · rw [if_neg native, if_neg native]
        dsimp only
        rw [AList.lookup_insert_ne same]
        by_cases own : other = accountID
        · have different : ¬ found' = asset := by
            intro equal
            exact same (by rw [own, equal])
          simp [own, different]
        · simp [own]

structure AccountRoom (header : LedgerHeader) (account : AccountEntry) (liab : Liabilities) :
    Prop where
  oldBuying : 0 ≤ (recorded account.ext).buying
  oldSelling : 0 ≤ (recorded account.ext).selling
  buying : 0 ≤ liab.buying
  selling : 0 ≤ liab.selling
  buyingFits : liab.buying ≤ INT64_MAX - account.balance
  sellingFits : 0 ≤ account.balance - getMinBalance header account.numSubEntries →
    liab.selling ≤ account.balance - getMinBalance header account.numSubEntries

structure LineRoom (line : TrustLineEntry) (liab : Liabilities) : Prop where
  authorized : isAuthorized line = true
  oldBuying : 0 ≤ (recorded line.ext).buying
  oldSelling : 0 ≤ (recorded line.ext).selling
  buying : 0 ≤ liab.buying
  selling : 0 ≤ liab.selling
  buyingFits : liab.buying ≤ line.limit - line.balance
  sellingFits : liab.selling ≤ line.balance

/-- Selling liabilities that would have to change on an account below its reserve. -/
def Jammed (header : LedgerHeader) (account : AccountEntry) (liab : Liabilities) : Prop :=
  account.balance < getMinBalance header account.numSubEntries ∧
    (recorded account.ext).selling ≠ liab.selling

def single (asset : Asset) (liab : Liabilities) : Asset → Option Liabilities :=
  fun other => if other = asset then some liab else none

section Record

variable {ledger : Ledger} {accountID : AccountID} {account : AccountEntry} {liab : Liabilities}

theorem foundAgain (ledger : Ledger) (accountID : AccountID) (updated : AccountEntry) :
    ({ ledger with accounts := ledger.accounts.insert accountID updated } : Ledger).accounts.lookup
      accountID = some updated :=
  AList.lookup_insert _

theorem lineAgain (ledger : Ledger) (key : TrustLineKey) (updated : TrustLineEntry) :
    ({ ledger with trustLines := ledger.trustLines.insert key updated } : Ledger).trustLines.lookup
      key = some updated :=
  AList.lookup_insert _

theorem recordLiabilities_native (version : 10 ≤ ledger.header.ledgerVersion)
    (found : ledger.accounts.lookup accountID = some account)
    (room : AccountRoom ledger.header account liab) (free : ¬ Jammed ledger.header account liab) :
    ∃ after, recordLiabilities accountID .native liab ledger = .ok () after ∧
      Rerecorded accountID (single .native liab) ledger after := by
  have buyingRoom := room.buying.trans room.buyingFits
  obtain ⟨sold, soldOk⟩ : ∃ sold, addSellingLiabilitiesToAccount ledger.header account
      (liab.selling - (recorded account.ext).selling) = .ok (some sold) := by
    by_cases below : account.balance - getMinBalance ledger.header account.numSubEntries < 0
    · have same : (recorded account.ext).selling = liab.selling := by
        by_contra different
        exact free ⟨by omega, different⟩
      rw [addSellingLiabilitiesToAccount_below version below, if_pos (by omega)]
      exact ⟨account, rfl⟩
    · have enough := room.sellingFits (by omega)
      apply addSellingLiabilitiesToAccount_eq version room.oldSelling (by omega)
      · have nonneg := room.selling
        omega
      · omega
  obtain ⟨soldExt, soldIs, soldRecorded, -⟩ := addSellingLiabilitiesToAccount_some soldOk
  subst soldIs
  have boughtSame : (recorded soldExt).buying = (recorded account.ext).buying := by
    rw [soldRecorded]
  obtain ⟨bought, boughtOk⟩ : ∃ bought, addBuyingLiabilitiesToAccount ledger.header
      { account with ext := soldExt } (liab.buying - (recorded account.ext).buying) =
      .ok (some bought) := by
    have old := room.oldBuying
    have nonneg := room.buying
    have fits := room.buyingFits
    apply addBuyingLiabilitiesToAccount_eq version <;> dsimp only <;> omega
  obtain ⟨boughtExt, boughtIs, boughtRecorded, -⟩ := addBuyingLiabilitiesToAccount_some boughtOk
  subst boughtIs
  have final : recorded boughtExt = liab := by
    rw [boughtRecorded]
    dsimp only
    rw [soldRecorded]
    dsimp only
    have sellingSum : (recorded account.ext).selling +
        (liab.selling - (recorded account.ext).selling) = liab.selling := by omega
    have buyingSum : (recorded account.ext).buying +
        (liab.buying - (recorded account.ext).buying) = liab.buying := by omega
    rw [sellingSum, buyingSum]
  have header : loadHeader ledger = .ok ledger.header ledger := rfl
  have current : accountTable.current accountID ledger = .ok account ledger := current_ok found
  have oldSelling : computed (getSellingLiabilities ledger.header account.ext) ledger =
      .ok (recorded account.ext).selling ledger := by
    rw [getSellingLiabilities_eq version]
    rfl
  have oldBuying : computed (getBuyingLiabilities ledger.header account.ext) ledger =
      .ok (recorded account.ext).buying ledger := by
    rw [getBuyingLiabilities_eq version]
    rfl
  have first := updateAccount_stores
    (addSellingLiabilitiesToAccount · · (liab.selling - (recorded account.ext).selling)) found soldOk
  have second := updateAccount_stores
    (addBuyingLiabilitiesToAccount · · (liab.buying - (recorded account.ext).buying))
    (foundAgain ledger accountID { account with ext := soldExt }) boughtOk
  have overwritten : (ledger.accounts.insert accountID { account with ext := soldExt }).insert
      accountID { account with ext := boughtExt } =
      ledger.accounts.insert accountID { account with ext := boughtExt } := AList.insert_insert _
  have once := rerecorded_account found boughtExt
  rw [final] at once
  refine ⟨_, ?_, once⟩
  unfold recordLiabilities
  rw [bind_of_ok header]
  change (accountTable.current accountID >>= _) ledger = _
  rw [bind_of_ok current, bind_of_ok oldSelling, bind_of_ok oldBuying,
    bind_of_ok (orThrow_true first), ← overwritten]
  exact orThrow_true second

theorem recordLiabilities_jammed (version : 10 ≤ ledger.header.ledgerVersion)
    (found : ledger.accounts.lookup accountID = some account)
    (jammed : Jammed ledger.header account liab) :
    recordLiabilities accountID .native liab ledger =
      .error (.runtimeError "invalid selling liabilities during upgrade") ledger := by
  have header : loadHeader ledger = .ok ledger.header ledger := rfl
  have current : accountTable.current accountID ledger = .ok account ledger := current_ok found
  have oldSelling : computed (getSellingLiabilities ledger.header account.ext) ledger =
      .ok (recorded account.ext).selling ledger := by
    rw [getSellingLiabilities_eq version]
    rfl
  have oldBuying : computed (getBuyingLiabilities ledger.header account.ext) ledger =
      .ok (recorded account.ext).buying ledger := by
    rw [getBuyingLiabilities_eq version]
    rfl
  have below : account.balance - getMinBalance ledger.header account.numSubEntries < 0 := by
    have short := jammed.1
    omega
  have refused := addSellingLiabilitiesToAccount_below version below
    (liab.selling - (recorded account.ext).selling)
  rw [if_neg fun zero => jammed.2 (by omega)] at refused
  have first := orThrow_false "invalid selling liabilities during upgrade" (updateAccount_refuses
    (addSellingLiabilitiesToAccount · · (liab.selling - (recorded account.ext).selling)) found refused)
  unfold recordLiabilities
  rw [bind_of_ok header]
  change (accountTable.current accountID >>= _) ledger = _
  rw [bind_of_ok current, bind_of_ok oldSelling, bind_of_ok oldBuying]
  exact bind_of_error first

theorem recordLiabilities_line (version : 10 ≤ ledger.header.ledgerVersion) {asset : Asset}
    (credit : asset ≠ .native) (foreign : asset.issuer? ≠ some accountID) {line : TrustLineEntry}
    (found : ledger.trustLines.lookup ⟨accountID, asset⟩ = some line) (room : LineRoom line liab) :
    ∃ after, recordLiabilities accountID asset liab ledger = .ok () after ∧
      Rerecorded accountID (single asset liab) ledger after := by
  have buyingRoom := room.buying.trans room.buyingFits
  have sellingRoom := room.selling.trans room.sellingFits
  obtain ⟨sold, soldOk⟩ : ∃ sold, addSellingLiabilitiesToTrustLine ledger.header line
      (liab.selling - (recorded line.ext).selling) = .ok (some sold) := by
    have nonneg := room.selling
    have fits := room.sellingFits
    apply addSellingLiabilitiesToTrustLine_eq version room.authorized room.oldSelling sellingRoom
    · omega
    · omega
  obtain ⟨soldExt, soldIs, soldRecorded, -⟩ := addSellingLiabilitiesToTrustLine_some soldOk
  subst soldIs
  have boughtSame : (recorded soldExt).buying = (recorded line.ext).buying := by
    rw [soldRecorded]
  obtain ⟨bought, boughtOk⟩ : ∃ bought, addBuyingLiabilitiesToTrustLine ledger.header
      { line with ext := soldExt } (liab.buying - (recorded line.ext).buying) =
      .ok (some bought) := by
    have old := room.oldBuying
    have nonneg := room.buying
    have fits := room.buyingFits
    have authorized : isAuthorized { line with ext := soldExt } = true := room.authorized
    apply addBuyingLiabilitiesToTrustLine_eq version authorized <;> dsimp only <;> omega
  obtain ⟨boughtExt, boughtIs, boughtRecorded, -⟩ := addBuyingLiabilitiesToTrustLine_some boughtOk
  subst boughtIs
  have final : recorded boughtExt = liab := by
    rw [boughtRecorded]
    dsimp only
    rw [soldRecorded]
    dsimp only
    have sellingSum : (recorded line.ext).selling +
        (liab.selling - (recorded line.ext).selling) = liab.selling := by omega
    have buyingSum : (recorded line.ext).buying +
        (liab.buying - (recorded line.ext).buying) = liab.buying := by omega
    rw [sellingSum, buyingSum]
  have header : loadHeader ledger = .ok ledger.header ledger := rfl
  have loaded := loadTrustLine_line credit foreign found
  have oldSelling : computed (getSellingLiabilities ledger.header line.ext) ledger =
      .ok (recorded line.ext).selling ledger := by
    rw [getSellingLiabilities_eq version]
    rfl
  have oldBuying : computed (getBuyingLiabilities ledger.header line.ext) ledger =
      .ok (recorded line.ext).buying ledger := by
    rw [getBuyingLiabilities_eq version]
    rfl
  have first := updateTrustLine_stores
    (addSellingLiabilitiesToTrustLine · · (liab.selling - (recorded line.ext).selling)) credit
    foreign found soldOk
  have second := updateTrustLine_stores
    (addBuyingLiabilitiesToTrustLine · · (liab.buying - (recorded line.ext).buying)) credit foreign
    (lineAgain ledger ⟨accountID, asset⟩ { line with ext := soldExt }) boughtOk
  have overwritten : (ledger.trustLines.insert ⟨accountID, asset⟩
      { line with ext := soldExt }).insert ⟨accountID, asset⟩ { line with ext := boughtExt } =
      ledger.trustLines.insert ⟨accountID, asset⟩ { line with ext := boughtExt } :=
    AList.insert_insert _
  have once := rerecorded_line credit found boughtExt
  rw [final] at once
  refine ⟨_, ?_, once⟩
  unfold recordLiabilities
  rw [bind_of_ok header]
  split
  · exact absurd rfl credit
  rw [bind_of_ok loaded]
  change (computed (getSellingLiabilities ledger.header line.ext) >>= _) ledger = _
  rw [bind_of_ok oldSelling, bind_of_ok oldBuying, bind_of_ok (orThrow_true first), ← overwritten]
  exact orThrow_true second

end Record

/-! ### Recording all sums of an account -/

structure Recordable (ledger : Ledger) (accountID : AccountID) (asset : Asset)
    (liab : Liabilities) : Prop where
  foreign : asset.issuer? ≠ some accountID
  account : asset = .native → ∃ account, ledger.accounts.lookup accountID = some account ∧
    AccountRoom ledger.header account liab
  line : asset ≠ .native → ∃ line, ledger.trustLines.lookup ⟨accountID, asset⟩ = some line ∧
    LineRoom line liab

def JammedIn (ledger : Ledger) (accountID : AccountID) (asset : Asset) (liab : Liabilities) : Prop :=
  asset = .native ∧ ∃ account, ledger.accounts.lookup accountID = some account ∧
    Jammed ledger.header account liab

section RecordAll

variable {accountID : AccountID} {asset : Asset} {liab : Liabilities} {before after : Ledger}
  {changes : Asset → Option Liabilities}

theorem Rerecorded.account (rerecorded : Rerecorded accountID changes before after)
    (untouched : changes .native = none) {account : AccountEntry}
    (found : before.accounts.lookup accountID = some account) :
    ∃ ext, after.accounts.lookup accountID = some { account with ext } ∧
      recorded ext = recorded account.ext := by
  have bare := rerecorded.accounts accountID
  have same := rerecorded.liabilities accountID .native
  rw [if_pos rfl, untouched] at same
  unfold recordedIn at same
  rw [found] at bare same
  cases stored : after.accounts.lookup accountID with
  | none =>
      rw [stored] at bare
      cases bare
  | some updated =>
      rw [stored] at bare same
      refine ⟨updated.ext, ?_, same⟩
      rw [← bareAccount_eq (Option.some.inj bare)]

theorem Rerecorded.line (rerecorded : Rerecorded accountID changes before after)
    (untouched : changes asset = none) (credit : asset ≠ .native) {line : TrustLineEntry}
    (found : before.trustLines.lookup ⟨accountID, asset⟩ = some line) :
    ∃ ext, after.trustLines.lookup ⟨accountID, asset⟩ = some { line with ext } ∧
      recorded ext = recorded line.ext := by
  have bare := rerecorded.lines ⟨accountID, asset⟩
  have same := rerecorded.liabilities accountID asset
  rw [if_pos rfl, untouched] at same
  unfold recordedIn at same
  rw [if_neg credit] at same
  rw [found] at bare same
  cases stored : after.trustLines.lookup ⟨accountID, asset⟩ with
  | none =>
      rw [stored] at bare
      cases bare
  | some updated =>
      rw [stored] at bare same
      refine ⟨updated.ext, ?_, ?_⟩
      · rw [← bareLine_eq (Option.some.inj bare)]
      · simpa [credit] using same

theorem Recordable.kept (recordable : Recordable before accountID asset liab)
    (rerecorded : Rerecorded accountID changes before after) (untouched : changes asset = none) :
    Recordable after accountID asset liab where
  foreign := recordable.foreign
  account := by
    intro native
    subst native
    obtain ⟨account, found, room⟩ := recordable.account rfl
    obtain ⟨ext, found', same⟩ := rerecorded.account untouched found
    refine ⟨{ account with ext }, found', ?_⟩
    rw [rerecorded.header]
    exact { room with
      oldBuying := by
        dsimp only
        rw [same]
        exact room.oldBuying
      oldSelling := by
        dsimp only
        rw [same]
        exact room.oldSelling }
  line := by
    intro credit
    obtain ⟨line, found, room⟩ := recordable.line credit
    obtain ⟨ext, found', same⟩ := rerecorded.line untouched credit found
    refine ⟨{ line with ext }, found', ?_⟩
    exact { room with
      oldBuying := by
        dsimp only
        rw [same]
        exact room.oldBuying
      oldSelling := by
        dsimp only
        rw [same]
        exact room.oldSelling }

theorem jammedIn_after (rerecorded : Rerecorded accountID changes before after)
    (untouched : changes asset = none)
    (recordable : Recordable before accountID asset liab) :
    JammedIn after accountID asset liab ↔ JammedIn before accountID asset liab := by
  constructor
  · intro ⟨native, updated, stored, jammed⟩
    subst native
    obtain ⟨account, found, _⟩ := recordable.account rfl
    obtain ⟨ext, found', same⟩ := rerecorded.account untouched found
    rw [found'] at stored
    cases stored
    rw [rerecorded.header] at jammed
    refine ⟨rfl, account, found, jammed.1, ?_⟩
    rw [← same]
    exact jammed.2
  · intro ⟨native, account, found, jammed⟩
    subst native
    obtain ⟨ext, found', same⟩ := rerecorded.account untouched found
    refine ⟨rfl, { account with ext }, found', ?_⟩
    rw [rerecorded.header]
    refine ⟨jammed.1, ?_⟩
    dsimp only
    rw [same]
    exact jammed.2

theorem recordLiabilities_outcome (version : 10 ≤ before.header.ledgerVersion)
    (recordable : Recordable before accountID asset liab) :
    wp (recordLiabilities accountID asset liab)
      (fun _ after => Rerecorded accountID (single asset liab) before after ∧
        ¬ JammedIn before accountID asset liab)
      (fun _ _ => JammedIn before accountID asset liab) before := by
  by_cases native : asset = .native
  · subst native
    obtain ⟨account, found, room⟩ := recordable.account rfl
    by_cases jammed : Jammed before.header account liab
    · unfold wp
      rw [recordLiabilities_jammed version found jammed]
      exact ⟨rfl, account, found, jammed⟩
    · obtain ⟨after, ran, rerecorded⟩ := recordLiabilities_native version found room jammed
      rw [wp_of_ok ran]
      refine ⟨rerecorded, ?_⟩
      intro ⟨_, other, found', jammed'⟩
      rw [found] at found'
      cases found'
      exact jammed jammed'
  · obtain ⟨line, found, room⟩ := recordable.line native
    obtain ⟨after, ran, rerecorded⟩ :=
      recordLiabilities_line version native recordable.foreign found room
    rw [wp_of_ok ran]
    exact ⟨rerecorded, fun jammed => native jammed.1⟩

theorem Rerecorded.cons {rest : List (Sigma fun _ : Asset => Liabilities)} {middle : Ledger}
    (fresh : List.dlookup asset rest = none)
    (first : Rerecorded accountID (single asset liab) before middle)
    (later : Rerecorded accountID (fun other => List.dlookup other rest) middle after) :
    Rerecorded accountID (fun other => List.dlookup other (⟨asset, liab⟩ :: rest)) before after where
  header := later.header.trans first.header
  offers := later.offers.trans first.offers
  accounts := fun other => (later.accounts other).trans (first.accounts other)
  lines := fun key => (later.lines key).trans (first.lines key)
  otherAccounts := fun other different =>
    (later.otherAccounts other different).trans (first.otherAccounts other different)
  otherLines := fun key different =>
    (later.otherLines key different).trans (first.otherLines key different)
  liabilities := by
    intro other found
    rw [later.liabilities, first.liabilities]
    unfold single
    by_cases own : other = accountID
    · simp only [own, if_true]
      by_cases same : found = asset
      · subst same
        rw [fresh, List.dlookup_cons_eq]
        simp
      · rw [List.dlookup_cons_ne _ _ same, if_neg same]
        rfl
    · simp only [own, if_false]

theorem recordAll_outcome (entries : List (Sigma fun _ : Asset => Liabilities))
    (distinct : entries.NodupKeys) (version : 10 ≤ before.header.ledgerVersion)
    (recordable : ∀ entry ∈ entries, Recordable before accountID entry.1 entry.2) :
    wp (entries.forM fun entry => recordLiabilities accountID entry.1 entry.2)
      (fun _ after => Rerecorded accountID (fun asset => List.dlookup asset entries) before after ∧
        ∀ entry ∈ entries, ¬ JammedIn before accountID entry.1 entry.2)
      (fun _ _ => ∃ entry ∈ entries, JammedIn before accountID entry.1 entry.2) before := by
  induction entries generalizing before with
  | nil => exact ⟨Rerecorded.refl accountID before, fun _ member => by cases member⟩
  | cons entry rest ih =>
      obtain ⟨asset, liab⟩ := entry
      have parts := List.nodupKeys_cons.mp distinct
      have fresh : List.dlookup asset rest = none := List.dlookup_eq_none.mpr parts.1
      change wp (recordLiabilities accountID asset liab >>= fun _ =>
        rest.forM fun entry => recordLiabilities accountID entry.1 entry.2) _ _ before
      rw [wp_bind]
      apply wp_mono (recordLiabilities_outcome version (recordable _ List.mem_cons_self))
      · intro _ middle ⟨first, free⟩
        have untouched : ∀ entry ∈ rest, single asset liab entry.1 = none := by
          intro entry member
          unfold single
          rw [if_neg]
          intro same
          apply parts.1
          rw [← same]
          exact List.mem_map.mpr ⟨entry, member, rfl⟩
        have versionMiddle : 10 ≤ middle.header.ledgerVersion := by
          rw [first.header]
          exact version
        have recordableRest : ∀ entry ∈ rest, Recordable middle accountID entry.1 entry.2 := by
          intro entry member
          exact (recordable entry (List.mem_cons_of_mem _ member)).kept first (untouched entry member)
        have unjam : ∀ entry ∈ rest, (JammedIn middle accountID entry.1 entry.2 ↔
            JammedIn before accountID entry.1 entry.2) := by
          intro entry member
          exact jammedIn_after first (untouched entry member)
            (recordable entry (List.mem_cons_of_mem _ member))
        apply wp_mono (ih parts.2 versionMiddle recordableRest)
        · intro _ after ⟨later, freeRest⟩
          refine ⟨Rerecorded.cons fresh first later, ?_⟩
          intro entry member
          rcases List.mem_cons.mp member with same | inRest
          · rw [same]
            exact free
          · rw [← unjam entry inRest]
            exact freeRest entry inRest
        · intro _ after ⟨entry, member, jammed⟩
          exact ⟨entry, List.mem_cons_of_mem _ member, (unjam entry member).mp jammed⟩
      · intro _ after jammed
        exact ⟨_, List.mem_cons_self, jammed⟩

end RecordAll

end ViiCore.Herder
