import ViiCore.Transactions.Operations

/-!
Signature weights (`SignatureChecker.cpp`, `SignatureUtils.cpp`). The cryptographic
primitives are parameters.
-/

namespace ViiCore.Transactions

open ViiCore.Ledger ViiCore.FiniteMap

structure DecoratedSignature where
  hint : BitVec 32
  signature : List UInt8
  deriving DecidableEq

structure Crypto where
  verifySig : Uint256 → List UInt8 → Uint256 → Bool
  sha256 : List UInt8 → Uint256

/-- A hint is the last four bytes of the key it stands for. -/
def doesHintMatch (key : Uint256) (hint : BitVec 32) : Bool := key.setWidth 32 = hint

def Crypto.verify (crypto : Crypto) (contentsHash : Uint256) (sig : DecoratedSignature)
    (signer : Signer) : Bool :=
  match signer.key with
  | .ed25519 key => doesHintMatch key sig.hint ∧ crypto.verifySig key sig.signature contentsHash
  | _ => false

def Crypto.verifyHashX (crypto : Crypto) (sig : DecoratedSignature) (signer : Signer) : Bool :=
  match signer.key with
  | .hashX hash => doesHintMatch hash sig.hint ∧ hash = crypto.sha256 sig.signature
  | _ => false

structure SignatureChecker where
  protocolVersion : Nat
  contentsHash : Uint256
  signatures : List DecoratedSignature
  usedSignatures : List Bool
  usedOneTimeSignerKeys : Map AccountID (List SignerKey)

def SignatureChecker.ofSignatures (protocolVersion : Nat) (contentsHash : Uint256)
    (signatures : List DecoratedSignature) : SignatureChecker :=
  { protocolVersion, contentsHash, signatures, usedSignatures := signatures.map fun _ => false,
    usedOneTimeSignerKeys := ∅ }

namespace SignatureChecker

variable (checker : SignatureChecker)

def weightOf (signer : Signer) : Nat :=
  if checker.protocolVersion > 9 ∧ signer.weight > UINT8_MAX then UINT8_MAX else signer.weight

def useOneTimeSigner (accountID : AccountID) (key : SignerKey) : SignatureChecker :=
  let used := (checker.usedOneTimeSignerKeys.lookup accountID).getD []
  let updated := if key ∈ used then used else key :: used
  { checker with
    usedOneTimeSignerKeys := checker.usedOneTimeSignerKeys.insert accountID updated }

structure Tally where
  totalWeight : Int
  reached : Bool

def checkPreAuth (accountID : AccountID) (neededWeight : Int) :
    SignatureChecker → List Signer → Int → SignatureChecker × Tally
  | checker, [], totalWeight => (checker, { totalWeight, reached := false })
  | checker, signer :: rest, totalWeight =>
      if signer.key = .preAuthTx checker.contentsHash then
        let checker := checker.useOneTimeSigner accountID signer.key
        let totalWeight := totalWeight + checker.weightOf signer
        if totalWeight ≥ neededWeight then (checker, { totalWeight, reached := true })
        else checkPreAuth accountID neededWeight checker rest totalWeight
      else
        checkPreAuth accountID neededWeight checker rest totalWeight

/-- Each signature counts for the first signer it verifies under, who then leaves the list. -/
def verifyAll (verify : DecoratedSignature → Signer → Bool) (neededWeight : Int) :
    List (DecoratedSignature × Bool) → List Signer → Int → List Bool × Tally
  | [], _, totalWeight => ([], { totalWeight, reached := false })
  | (sig, used) :: rest, signers, totalWeight =>
      match signers.find? (verify sig) with
      | none =>
          let (marks, tally) := verifyAll verify neededWeight rest signers totalWeight
          (used :: marks, tally)
      | some signer =>
          let totalWeight := totalWeight + checker.weightOf signer
          if totalWeight ≥ neededWeight then
            (true :: rest.map Prod.snd, { totalWeight, reached := true })
          else
            let (marks, tally) :=
              verifyAll verify neededWeight rest (signers.eraseP (verify sig)) totalWeight
            (true :: marks, tally)

def verifyWith (verify : DecoratedSignature → Signer → Bool) (neededWeight : Int)
    (signers : List Signer) (totalWeight : Int) : SignatureChecker × Tally :=
  let (marks, tally) := checker.verifyAll verify neededWeight
    (checker.signatures.zip checker.usedSignatures) signers totalWeight
  ({ checker with usedSignatures := marks }, tally)

def isHashX (signer : Signer) : Bool := match signer.key with | .hashX _ => true | _ => false

def isEd25519 (signer : Signer) : Bool := match signer.key with | .ed25519 _ => true | _ => false

def isPreAuthTx (signer : Signer) : Bool :=
  match signer.key with | .preAuthTx _ => true | _ => false

def checkSignature (crypto : Crypto) (accountID : AccountID) (signers : List Signer)
    (neededWeight : Int) : SignatureChecker × Bool :=
  if checker.protocolVersion = 7 then (checker, true)
  else
    let (checker, tally) := checkPreAuth accountID neededWeight checker (signers.filter isPreAuthTx) 0
    if tally.reached then (checker, true)
    else
      let (checker, tally) := checker.verifyWith crypto.verifyHashX neededWeight
        (signers.filter isHashX) tally.totalWeight
      if tally.reached then (checker, true)
      else
        let (checker, tally) := checker.verifyWith (crypto.verify checker.contentsHash) neededWeight
          (signers.filter isEd25519) tally.totalWeight
        (checker, tally.reached)

def checkAllSignaturesUsed : Bool :=
  checker.protocolVersion = 7 ∨ checker.usedSignatures.all id

end SignatureChecker

end ViiCore.Transactions
