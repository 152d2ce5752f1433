import Mathlib.Algebra.BigOperators.Group.List.Basic
import Mathlib.Algebra.Order.BigOperators.Group.List
import ViiCore.Transactions.SignatureChecker

/-!
The weight law of signatures.

From version 10 on, the check adds up the capped weights of the signers that match, each once, and
stops when it has enough. Weights are not negative, so stopping early does not change the answer.
-/

namespace ViiCore.Transactions

open ViiCore.Ledger ViiCore.FiniteMap

/-- A signature counts for a signer by a preimage or by the contents that were signed. -/
def Crypto.verifies (crypto : Crypto) (contentsHash : Uint256) (sig : DecoratedSignature)
    (signer : Signer) : Bool :=
  crypto.verifyHashX sig signer || crypto.verify contentsHash sig signer

namespace SignatureChecker

def matching (crypto : Crypto) (checker : SignatureChecker) (signer : Signer) : Bool :=
  match signer.key with
  | .preAuthTx hash => hash = checker.contentsHash
  | .hashX _ => checker.signatures.any fun sig => crypto.verifyHashX sig signer
  | .ed25519 _ => checker.signatures.any fun sig => crypto.verify checker.contentsHash sig signer

def cappedWeight (signer : Signer) : Nat := min signer.weight UINT8_MAX

def weight (signers : List Signer) : Nat := (signers.map cappedWeight).sum

/-- What a pass over some signers has found, from a total before it: enough weight, or the weight of
all that match and that it is not enough. -/
structure Weighed (neededWeight totalWeight : Int) (matched : List Signer) (tally : Tally) :
    Prop where
  reached : tally.reached = true ↔ matched ≠ [] ∧ neededWeight ≤ totalWeight + weight matched
  total : tally.reached = false → tally.totalWeight = totalWeight + weight matched

theorem weighed_nil (neededWeight totalWeight : Int) :
    Weighed neededWeight totalWeight [] { totalWeight, reached := false } where
  reached := by simp
  total := by simp [weight]

theorem weighed_stop {neededWeight totalWeight : Int} {signer : Signer} (rest : List Signer)
    (enough : totalWeight + cappedWeight signer ≥ neededWeight) :
    Weighed neededWeight totalWeight (signer :: rest)
      { totalWeight := totalWeight + cappedWeight signer, reached := true } where
  reached := by
    simp only [weight, List.map_cons, List.sum_cons, ne_eq, reduceCtorEq, not_false_eq_true,
      true_and, true_iff]
    omega
  total := by simp

theorem Weighed.cons {neededWeight totalWeight : Int} {signer : Signer} {rest : List Signer}
    {tally : Tally} (later : Weighed neededWeight (totalWeight + cappedWeight signer) rest tally)
    (missing : ¬ totalWeight + cappedWeight signer ≥ neededWeight) :
    Weighed neededWeight totalWeight (signer :: rest) tally where
  reached := by
    rw [later.reached]
    simp only [weight, List.map_cons, List.sum_cons, ne_eq, reduceCtorEq, not_false_eq_true,
      true_and]
    cases rest with
    | nil =>
        simp only [List.map_nil, List.sum_nil, not_true_eq_false, false_and, false_iff]
        omega
    | cons next others =>
        simp only [List.map_cons, List.sum_cons, reduceCtorEq, not_false_eq_true, true_and]
        omega
  total := by
    intro off
    rw [later.total off]
    simp only [weight, List.map_cons, List.sum_cons]
    omega

theorem weight_append (left right : List Signer) :
    weight (left ++ right) = weight left + weight right := by
  rw [weight, List.map_append, List.sum_append]
  rfl

theorem Weighed.enough {neededWeight totalWeight : Int} {matched : List Signer} {tally : Tally}
    (weighed : Weighed neededWeight totalWeight matched tally) (reached : tally.reached = true)
    (more : List Signer) :
    matched ++ more ≠ [] ∧ neededWeight ≤ totalWeight + weight (matched ++ more) := by
  obtain ⟨some, heavy⟩ := weighed.reached.mp reached
  refine ⟨List.append_ne_nil_of_left_ne_nil some more, ?_⟩
  rw [weight_append]
  omega

theorem Weighed.append {neededWeight totalWeight : Int} {first second : List Signer}
    {tally after : Tally} (early : Weighed neededWeight totalWeight first tally)
    (off : tally.reached = false)
    (late : Weighed neededWeight tally.totalWeight second after) :
    Weighed neededWeight totalWeight (first ++ second) after where
  reached := by
    rw [late.reached, early.total off, weight_append]
    cases second with
    | nil =>
        have missed : ¬ (first ≠ [] ∧ neededWeight ≤ totalWeight + weight first) := by
          rw [← early.reached, off]
          exact Bool.false_ne_true
        simpa [weight] using missed
    | cons next others =>
        simp only [ne_eq, reduceCtorEq, not_false_eq_true, true_and, List.append_eq_nil_iff,
          and_false]
        omega
  total := by
    intro still
    rw [late.total still, early.total off, weight_append]
    omega

theorem weight_perm {left right : List Signer} (perm : left.Perm right) :
    weight left = weight right :=
  (perm.map cappedWeight).sum_eq

theorem Weighed.perm {neededWeight totalWeight : Int} {left right : List Signer} {tally : Tally}
    (weighed : Weighed neededWeight totalWeight left tally) (perm : left.Perm right) :
    Weighed neededWeight totalWeight right tally where
  reached := by
    rw [weighed.reached, weight_perm perm, ← List.length_pos_iff, perm.length_eq,
      List.length_pos_iff]
  total := by
    rw [← weight_perm perm]
    exact weighed.total

variable {checker : SignatureChecker}

theorem weightOf_capped (version : 10 ≤ checker.protocolVersion) (signer : Signer) :
    checker.weightOf signer = cappedWeight signer := by
  unfold weightOf cappedWeight
  split <;> omega

/-! ### The passes -/

theorem checkPreAuth_weighed (accountID : AccountID) (neededWeight : Int) (signers : List Signer)
    (checker : SignatureChecker) (version : 10 ≤ checker.protocolVersion) (totalWeight : Int) :
    Weighed neededWeight totalWeight
      (signers.filter fun signer => signer.key = .preAuthTx checker.contentsHash)
      (checkPreAuth accountID neededWeight checker signers totalWeight).2 := by
  induction signers generalizing checker totalWeight with
  | nil => exact weighed_nil neededWeight totalWeight
  | cons signer rest ih =>
      rw [checkPreAuth]
      by_cases authorised : signer.key = .preAuthTx checker.contentsHash
      · rw [if_pos authorised, List.filter_cons_of_pos (by simpa using authorised)]
        have weighs : (checker.useOneTimeSigner accountID signer.key).weightOf signer =
            cappedWeight signer := weightOf_capped version signer
        simp only [weighs]
        split
        · rename_i enough
          exact weighed_stop _ enough
        · rename_i missing
          exact (ih (checker.useOneTimeSigner accountID signer.key) version _).cons missing
      · rw [if_neg authorised, List.filter_cons_of_neg (by simpa using authorised)]
        exact ih checker version totalWeight

theorem verifyAll_weighed {verify : DecoratedSignature → Signer → Bool} (neededWeight : Int)
    (version : 10 ≤ checker.protocolVersion) (sigs : List (DecoratedSignature × Bool))
    (signers : List Signer) (nodup : signers.Nodup)
    (single : ∀ sig ∈ sigs, ∀ left ∈ signers, ∀ right ∈ signers,
      verify sig.1 left = true → verify sig.1 right = true → left = right) (totalWeight : Int) :
    Weighed neededWeight totalWeight
      (signers.filter fun signer => sigs.any fun sig => verify sig.1 signer)
      (checker.verifyAll verify neededWeight sigs signers totalWeight).2 := by
  induction sigs generalizing signers totalWeight with
  | nil =>
      rw [verifyAll]
      simpa using weighed_nil neededWeight totalWeight
  | cons head rest ih =>
      obtain ⟨sig, used⟩ := head
      have singleRest : ∀ sig ∈ rest, _ := fun sig later => single sig (List.mem_cons_of_mem _ later)
      rw [verifyAll]
      cases found : signers.find? (verify sig) with
      | none =>
          have same : (signers.filter fun signer =>
              ((sig, used) :: rest).any fun sig => verify sig.1 signer) =
              signers.filter fun signer => rest.any fun sig => verify sig.1 signer := by
            apply List.filter_congr
            intro signer member
            have miss := List.find?_eq_none.mp found signer member
            rw [List.any_cons, Bool.eq_false_of_not_eq_true miss, Bool.false_or]
          rw [same]
          exact ih signers nodup singleRest totalWeight
      | some signer =>
          obtain ⟨hit, before, after, rfl, missed⟩ := List.find?_eq_some_iff_append.mp found
          have erased : (before ++ signer :: after).eraseP (verify sig) = before ++ after := by
            rw [List.eraseP_append_right _ (by simpa using missed),
              List.eraseP_cons_of_pos hit]
          have moved : (before ++ signer :: after).Perm (signer :: (before ++ after)) :=
            List.perm_middle
          have distinct := moved.nodup_iff.mp nodup
          obtain ⟨absent, others⟩ := List.nodup_cons.mp distinct
          -- nobody else matches this signature, so it adds one signer to those of the others
          have counted : ((before ++ signer :: after).filter fun signer =>
              ((sig, used) :: rest).any fun sig => verify sig.1 signer).Perm
              (signer :: (before ++ after).filter fun signer =>
                rest.any fun sig => verify sig.1 signer) := by
            refine (moved.filter _).trans ?_
            rw [List.filter_cons_of_pos (by simp [hit])]
            refine List.Perm.cons signer (List.Perm.of_eq (List.filter_congr ?_))
            intro other member
            have miss : verify sig other = false := by
              by_contra verified
              have same := single (sig, used) List.mem_cons_self other
                (moved.mem_iff.mpr (List.mem_cons_of_mem _ member)) signer
                (moved.mem_iff.mpr List.mem_cons_self) (Bool.eq_true_of_not_eq_false verified) hit
              exact absent (same ▸ member)
            rw [List.any_cons, miss, Bool.false_or]
          refine Weighed.perm ?_ counted.symm
          simp only [weightOf_capped version]
          split
          · rename_i enough
            exact weighed_stop _ enough
          · rename_i missing
            rw [erased]
            refine Weighed.cons (ih (before ++ after) others ?_ _) missing
            intro other later left leftMember right rightMember
            exact singleRest other later left
              (moved.mem_iff.mpr (List.mem_cons_of_mem _ leftMember)) right
              (moved.mem_iff.mpr (List.mem_cons_of_mem _ rightMember))

/-! ### The whole check -/

theorem checkPreAuth_keeps (accountID : AccountID) (neededWeight : Int) (signers : List Signer)
    (checker : SignatureChecker) (totalWeight : Int) :
    let after := (checkPreAuth accountID neededWeight checker signers totalWeight).1
    after.protocolVersion = checker.protocolVersion ∧ after.contentsHash = checker.contentsHash ∧
      after.signatures = checker.signatures ∧ after.usedSignatures = checker.usedSignatures := by
  induction signers generalizing checker totalWeight with
  | nil => exact ⟨rfl, rfl, rfl, rfl⟩
  | cons signer rest ih =>
      rw [checkPreAuth]
      split
      · dsimp only
        split
        · exact ⟨rfl, rfl, rfl, rfl⟩
        · exact ih (checker.useOneTimeSigner accountID signer.key) _
      · exact ih checker totalWeight

theorem verifyAll_length (verify : DecoratedSignature → Signer → Bool) (neededWeight : Int)
    (sigs : List (DecoratedSignature × Bool)) (signers : List Signer) (totalWeight : Int) :
    (checker.verifyAll verify neededWeight sigs signers totalWeight).1.length = sigs.length := by
  induction sigs generalizing signers totalWeight with
  | nil => rfl
  | cons head rest ih =>
      rw [verifyAll]
      split
      · rw [List.length_cons, List.length_cons, ih]
      · dsimp only
        split
        · rw [List.length_cons, List.length_cons, List.length_map]
        · rw [List.length_cons, List.length_cons, ih]

def Marked (checker : SignatureChecker) : Prop :=
  checker.usedSignatures.length = checker.signatures.length

theorem marked_ofSignatures (protocolVersion : Nat) (contentsHash : Uint256)
    (signatures : List DecoratedSignature) :
    (ofSignatures protocolVersion contentsHash signatures).Marked :=
  List.length_map _

theorem Marked.verifyWith (marked : checker.Marked)
    (verify : DecoratedSignature → Signer → Bool) (neededWeight : Int) (signers : List Signer)
    (totalWeight : Int) :
    (checker.verifyWith verify neededWeight signers totalWeight).1.Marked := by
  unfold Marked SignatureChecker.verifyWith
  rw [verifyAll_length, List.length_zip, marked, Nat.min_self]

theorem Marked.verifyWith_weighed (marked : checker.Marked)
    (version : 10 ≤ checker.protocolVersion) {signatures : List DecoratedSignature}
    (same : checker.signatures = signatures) {verify : DecoratedSignature → Signer → Bool}
    (neededWeight : Int) {signers : List Signer} (nodup : signers.Nodup)
    (single : ∀ sig ∈ signatures, ∀ left ∈ signers, ∀ right ∈ signers,
      verify sig left = true → verify sig right = true → left = right) (totalWeight : Int) :
    Weighed neededWeight totalWeight
      (signers.filter fun signer => signatures.any fun sig => verify sig signer)
      (checker.verifyWith verify neededWeight signers totalWeight).2 := by
  subst same
  have each : ∀ signer,
      ((checker.signatures.zip checker.usedSignatures).any fun sig => verify sig.1 signer) =
        checker.signatures.any fun sig => verify sig signer := by
    intro signer
    calc _ = ((checker.signatures.zip checker.usedSignatures).map Prod.fst).any
          fun sig => verify sig signer := List.any_map.symm
      _ = _ := by rw [List.map_fst_zip marked.ge]
  simp only [← each]
  apply verifyAll_weighed neededWeight version _ _ nodup
  intro sig member
  exact single sig.1 (List.of_mem_zip member).1

theorem matching_perm (crypto : Crypto) (checker : SignatureChecker) (signers : List Signer) :
    (signers.filter (checker.matching crypto)).Perm
      (((signers.filter isPreAuthTx).filter
          fun signer => signer.key = .preAuthTx checker.contentsHash) ++
        (((signers.filter isHashX).filter
            fun signer => checker.signatures.any fun sig => crypto.verifyHashX sig signer) ++
          (signers.filter isEd25519).filter fun signer =>
            checker.signatures.any fun sig => crypto.verify checker.contentsHash sig signer)) := by
  induction signers with
  | nil => exact List.Perm.refl _
  | cons signer rest ih =>
      cases kind : signer.key with
      | preAuthTx hash =>
          by_cases same : hash = checker.contentsHash
          · simpa [isPreAuthTx, isHashX, isEd25519, matching, kind, same] using ih
          · simpa [isPreAuthTx, isHashX, isEd25519, matching, kind, same] using ih
      | hashX hash =>
          cases found : checker.signatures.any fun sig => crypto.verifyHashX sig signer with
          | false => simpa [isPreAuthTx, isHashX, isEd25519, matching, kind, found] using ih
          | true =>
              have placed := (ih.cons signer).trans List.perm_middle.symm
              simpa [isPreAuthTx, isHashX, isEd25519, matching, kind, found] using placed
      | ed25519 key =>
          cases found : checker.signatures.any fun sig =>
            crypto.verify checker.contentsHash sig signer with
          | false => simpa [isPreAuthTx, isHashX, isEd25519, matching, kind, found] using ih
          | true =>
              have placed := (ih.cons signer).trans List.perm_middle.symm
              have last := placed.trans (List.Perm.append_left _ List.perm_middle.symm)
              simpa [isPreAuthTx, isHashX, isEd25519, matching, kind, found] using last

theorem Marked.checkSignature_weighs (marked : checker.Marked)
    (version : 10 ≤ checker.protocolVersion) (crypto : Crypto) (accountID : AccountID)
    {signers : List Signer} (nodup : signers.Nodup)
    (single : ∀ sig ∈ checker.signatures, ∀ left ∈ signers, ∀ right ∈ signers,
      crypto.verifies checker.contentsHash sig left = true →
        crypto.verifies checker.contentsHash sig right = true → left = right)
    (neededWeight : Int) :
    (checker.checkSignature crypto accountID signers neededWeight).2 = true ↔
      signers.filter (checker.matching crypto) ≠ [] ∧
        neededWeight ≤ weight (signers.filter (checker.matching crypto)) := by
  have perm := matching_perm crypto checker signers
  rw [weight_perm perm, ← List.length_pos_iff, perm.length_eq, List.length_pos_iff]
  rw [SignatureChecker.checkSignature, if_neg (by omega)]
  have first := checkPreAuth_weighed accountID neededWeight (signers.filter isPreAuthTx) checker
    version 0
  have keeps := checkPreAuth_keeps accountID neededWeight (signers.filter isPreAuthTx) checker 0
  generalize checkPreAuth accountID neededWeight checker (signers.filter isPreAuthTx) 0 = afterFirst
    at first keeps ⊢
  obtain ⟨next, tally⟩ := afterFirst
  obtain ⟨sameVersion, sameHash, sameSignatures, sameMarks⟩ := keeps
  dsimp only at first sameVersion sameHash sameSignatures sameMarks ⊢
  have nextMarked : next.Marked := by
    unfold Marked
    rw [sameSignatures, sameMarks]
    exact marked
  have singleKind : ∀ (kind : Signer → Bool) (verify : DecoratedSignature → Signer → Bool),
      (∀ sig signer, verify sig signer = true →
        crypto.verifies checker.contentsHash sig signer = true) →
      ∀ sig ∈ checker.signatures, ∀ left ∈ signers.filter kind, ∀ right ∈ signers.filter kind,
        verify sig left = true → verify sig right = true → left = right := by
    intro kind verify verified sig member left leftMember right rightMember leftHit rightHit
    exact single sig member left (List.mem_of_mem_filter leftMember) right
      (List.mem_of_mem_filter rightMember) (verified sig left leftHit) (verified sig right rightHit)
  have nextVersion : 10 ≤ next.protocolVersion := by omega
  rw [← Int.zero_add (weight _ : Int)]
  cases off : tally.reached with
  | true => exact iff_of_true rfl (first.enough off _)
  | false =>
      have second := nextMarked.verifyWith_weighed nextVersion sameSignatures neededWeight
        (nodup.filter isHashX) (singleKind isHashX crypto.verifyHashX
          fun sig signer hit => by simp [Crypto.verifies, hit]) tally.totalWeight
      have both := first.append off second
      rw [← List.append_assoc, if_neg Bool.false_ne_true]
      cases still : (next.verifyWith crypto.verifyHashX neededWeight (signers.filter isHashX)
          tally.totalWeight).2.reached with
      | true => exact iff_of_true rfl (both.enough still _)
      | false =>
          have afterMarked := nextMarked.verifyWith crypto.verifyHashX neededWeight
            (signers.filter isHashX) tally.totalWeight
          have third := afterMarked.verifyWith_weighed nextVersion sameSignatures neededWeight
            (nodup.filter isEd25519) (singleKind isEd25519 (crypto.verify checker.contentsHash)
              fun sig signer hit => by simp [Crypto.verifies, hit])
            (next.verifyWith crypto.verifyHashX neededWeight (signers.filter isHashX)
              tally.totalWeight).2.totalWeight
          change (SignatureChecker.verifyWith _ (crypto.verify next.contentsHash) _ _ _).2.reached =
            true ↔ _
          rw [sameHash]
          exact (both.append still third).reached

/-- From version 10 on, the check answers whether some signer matches and the capped weights of all
matching signers are enough. So it depends neither on the order of signers or signatures nor on how
often a signature is given. -/
theorem checkSignature_iff_weight (crypto : Crypto) (checker : SignatureChecker)
    (version : 10 ≤ checker.protocolVersion) (marked : checker.Marked) (accountID : AccountID)
    (signers : List Signer) (distinct : (signers.map Signer.key).Nodup)
    (single : ∀ sig ∈ checker.signatures, ∀ left ∈ signers, ∀ right ∈ signers,
      crypto.verifies checker.contentsHash sig left = true →
        crypto.verifies checker.contentsHash sig right = true → left = right)
    (neededWeight : Int) :
    ((checker.checkSignature crypto accountID signers neededWeight).2 = true ↔
      (∃ signer ∈ signers, checker.matching crypto signer = true) ∧
        neededWeight ≤ (((signers.filter (checker.matching crypto)).map
          fun signer => min signer.weight UINT8_MAX).sum : Int)) ∧
    ∀ (other : SignatureChecker) (reordered : List Signer),
      other.protocolVersion = checker.protocolVersion → other.contentsHash = checker.contentsHash →
      other.Marked → (∀ sig, sig ∈ other.signatures ↔ sig ∈ checker.signatures) →
      reordered.Perm signers →
      (other.checkSignature crypto accountID reordered neededWeight).2 =
        (checker.checkSignature crypto accountID signers neededWeight).2 := by
  have answer := marked.checkSignature_weighs version crypto accountID distinct.of_map single
    neededWeight
  constructor
  · rw [answer, ne_eq, List.filter_eq_nil_iff]
    simp only [not_forall, not_not, exists_prop]
    rfl
  · intro other reordered sameVersion sameHash otherMarked sameSignatures perm
    have sameMatching : other.matching crypto = checker.matching crypto := by
      funext signer
      have any : ∀ test : DecoratedSignature → Bool,
          other.signatures.any test = checker.signatures.any test := by
        intro test
        rw [Bool.eq_iff_iff, List.any_eq_true, List.any_eq_true]
        simp only [sameSignatures]
      unfold matching
      rw [sameHash]
      cases signer.key with
      | preAuthTx hash => rfl
      | hashX hash => exact any _
      | ed25519 key => exact any _
    have otherAnswer := otherMarked.checkSignature_weighs (by omega) crypto accountID
      (perm.nodup_iff.mpr distinct.of_map) (by
        intro sig member left leftMember right rightMember
        rw [sameHash]
        exact single sig ((sameSignatures sig).mp member) left (perm.mem_iff.mp leftMember) right
          (perm.mem_iff.mp rightMember)) neededWeight
    have filtered := perm.filter (checker.matching crypto)
    rw [sameMatching, weight_perm filtered, ← List.length_pos_iff, filtered.length_eq,
      List.length_pos_iff] at otherAnswer
    rw [Bool.eq_iff_iff, otherAnswer, answer]

/-- A key signs what carries its last byte and the last byte of the contents. -/
def byteCrypto : Crypto where
  verifySig key signature hash := signature = [⟨key.setWidth 8⟩, ⟨hash.setWidth 8⟩]
  sha256 bytes := BitVec.ofNat 256 bytes.length

def twiceSigned : SignatureChecker :=
  ofSignatures 13 7 [⟨5, [5, 7]⟩, ⟨5, [5, 7]⟩]

def keyAndHash : List Signer := [⟨.ed25519 5, 300⟩, ⟨.preAuthTx 7, 2⟩, ⟨.hashX 9, 40⟩]

/-- A key of weight 300 counts for 255, once for two equal signatures, and a hash of weight 2 is
added. -/
theorem checkSignature_iff_weight_twice :
    (twiceSigned.checkSignature byteCrypto 5 keyAndHash 257).2 = true ∧
      (twiceSigned.checkSignature byteCrypto 5 keyAndHash 258).2 = false := by
  have weighs (neededWeight : Int) := (checkSignature_iff_weight byteCrypto twiceSigned (by decide)
    (marked_ofSignatures _ _ _) 5 keyAndHash (by decide) (by decide) neededWeight).1
  refine ⟨(weighs 257).mpr (by decide), ?_⟩
  rw [Bool.eq_false_iff, ne_eq, weighs 258]
  decide

end SignatureChecker

end ViiCore.Transactions
