import Mathlib.Data.Prod.Lex
import Mathlib.Data.Sum.Order
import Mathlib.Order.Lattice
import ViiCore.Bucket.Merge

/-!
The order of ledger keys (`bucket/LedgerCmp.h`).

Entries and keys are compared by their type and then by the fields that make up the key, so an
entry stands for its key. Account IDs, assets and the names of data are arbitrary linear orders.
-/

namespace ViiCore.Bucket

inductive LedgerKey (AccountID Asset DataName : Type) where
  | ACCOUNT (accountID : AccountID)
  | TRUSTLINE (accountID : AccountID) (asset : Asset)
  | OFFER (sellerID : AccountID) (offerID : Int)
  | DATA (accountID : AccountID) (dataName : DataName)
  deriving DecidableEq

variable {AccountID Asset DataName : Type}

namespace LedgerKey

def type : LedgerKey AccountID Asset DataName → Nat
  | ACCOUNT _ => 0
  | TRUSTLINE _ _ => 1
  | OFFER _ _ => 2
  | DATA _ _ => 3

def toSum : LedgerKey AccountID Asset DataName →
    AccountID ⊕ₗ ((AccountID ×ₗ Asset) ⊕ₗ ((AccountID ×ₗ Int) ⊕ₗ (AccountID ×ₗ DataName)))
  | ACCOUNT accountID => toLex (.inl accountID)
  | TRUSTLINE accountID asset => toLex (.inr (toLex (.inl (toLex (accountID, asset)))))
  | OFFER sellerID offerID =>
      toLex (.inr (toLex (.inr (toLex (.inl (toLex (sellerID, offerID)))))))
  | DATA accountID dataName =>
      toLex (.inr (toLex (.inr (toLex (.inr (toLex (accountID, dataName)))))))

theorem toSum_injective : Function.Injective (@toSum AccountID Asset DataName) := by
  intro left right same
  cases left <;> cases right <;> cases same <;> rfl

end LedgerKey

variable [LinearOrder AccountID] [LinearOrder Asset] [LinearOrder DataName]

instance : LinearOrder (LedgerKey AccountID Asset DataName) :=
  LinearOrder.lift' LedgerKey.toSum LedgerKey.toSum_injective

def LedgerEntryIdCmp (a b : LedgerKey AccountID Asset DataName) : Bool :=
  if a.type < b.type then true
  else if a.type > b.type then false
  else
    match a, b with
    | .ACCOUNT accountID, .ACCOUNT otherID => accountID < otherID
    | .TRUSTLINE accountID asset, .TRUSTLINE otherID otherAsset =>
        if accountID < otherID then true
        else if otherID < accountID then false
        else asset < otherAsset
    | .OFFER sellerID offerID, .OFFER otherID otherOfferID =>
        if sellerID < otherID then true
        else if otherID < sellerID then false
        else offerID < otherOfferID
    | .DATA accountID dataName, .DATA otherID otherName =>
        if accountID < otherID then true
        else if otherID < accountID then false
        else dataName < otherName
    | _, _ => false

theorem lex_iff {α β : Type} [LinearOrder α] [LinearOrder β] {first other : α} {second later : β} :
    (if first < other then true else if other < first then false else decide (second < later)) =
        true ↔ toLex (first, second) < toLex (other, later) := by
  rw [Prod.Lex.toLex_lt_toLex]
  rcases lt_trichotomy first other with before | same | after
  · simp [before]
  · simp [same]
  · simp [after, lt_asymm after, after.ne']

theorem LedgerEntryIdCmp_iff {a b : LedgerKey AccountID Asset DataName} :
    LedgerEntryIdCmp a b = true ↔ a < b := by
  change _ ↔ a.toSum < b.toSum
  cases a with
  | ACCOUNT accountID => cases b <;> simp [LedgerEntryIdCmp, LedgerKey.type, LedgerKey.toSum]
  | TRUSTLINE accountID asset =>
      cases b with
      | TRUSTLINE otherID otherAsset =>
          refine lex_iff.trans ?_
          simp [LedgerKey.toSum]
      | ACCOUNT _ => simp [LedgerEntryIdCmp, LedgerKey.type, LedgerKey.toSum]
      | OFFER _ _ => simp [LedgerEntryIdCmp, LedgerKey.type, LedgerKey.toSum]
      | DATA _ _ => simp [LedgerEntryIdCmp, LedgerKey.type, LedgerKey.toSum]
  | OFFER sellerID offerID =>
      cases b with
      | OFFER otherID otherOfferID =>
          refine lex_iff.trans ?_
          simp [LedgerKey.toSum]
      | ACCOUNT _ => simp [LedgerEntryIdCmp, LedgerKey.type, LedgerKey.toSum]
      | TRUSTLINE _ _ => simp [LedgerEntryIdCmp, LedgerKey.type, LedgerKey.toSum]
      | DATA _ _ => simp [LedgerEntryIdCmp, LedgerKey.type, LedgerKey.toSum]
  | DATA accountID dataName =>
      cases b with
      | DATA otherID otherName =>
          refine lex_iff.trans ?_
          simp [LedgerKey.toSum]
      | ACCOUNT _ => simp [LedgerEntryIdCmp, LedgerKey.type, LedgerKey.toSum]
      | TRUSTLINE _ _ => simp [LedgerEntryIdCmp, LedgerKey.type, LedgerKey.toSum]
      | OFFER _ _ => simp [LedgerEntryIdCmp, LedgerKey.type, LedgerKey.toSum]

end ViiCore.Bucket
