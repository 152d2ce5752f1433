import ViiCore.Herder.Upgrades
import ViiCore.Transactions.OfferLiabilities

/-!
The sums of liabilities that `prepareLiabilities` builds for an account.

The buying and the selling side of an offer are treated alike. The map of initial sums holds
every asset of an offer of the account, and leaves out a sum only when it does not fit; the map
of final sums holds an asset exactly when an offer that is kept mentions it. In both the issuer
of an asset has no liabilities in it.
-/

namespace ViiCore.Herder

open ViiCore.Ledger ViiCore.FiniteMap ViiCore.Execution ViiCore.Transactions

inductive Side where
  | buying
  | selling
  deriving DecidableEq

def Side.asset (side : Side) (offer : OfferEntry) : Asset :=
  match side with
  | .buying => offer.buying
  | .selling => offer.selling

def Side.of (side : Side) (liabilities : Liabilities) : Int :=
  match side with
  | .buying => liabilities.buying
  | .selling => liabilities.selling

def Side.getOfferLiabilities (side : Side) (header : LedgerHeader) (offer : OfferEntry) :
    Except Fault Int :=
  match side with
  | .buying => getOfferBuyingLiabilities header offer
  | .selling => getOfferSellingLiabilities header offer

/-- The liabilities of an offer on one side, where they can be computed. -/
def Side.amount (side : Side) (header : LedgerHeader) (offer : OfferEntry) : Int :=
  (side.getOfferLiabilities header offer).toOption.getD 0

structure SoundOffer (offer : OfferEntry) : Prop where
  price : PositivePrice offer.price
  nonneg : 0 ≤ offer.amount
  fits : offer.amount ≤ INT64_MAX

section Amounts

variable {header : LedgerHeader} {offer : OfferEntry}

theorem getOfferLiabilities_eq (side : Side) (version : 10 ≤ header.ledgerVersion)
    (sound : SoundOffer offer) :
    side.getOfferLiabilities header offer = .ok (side.amount header offer) := by
  have late : ¬ header.ledgerVersion < 10 := by omega
  have computed := offerLiabilities_eq sound.price sound.nonneg sound.fits
  cases side with
  | buying =>
      unfold Side.amount Side.getOfferLiabilities getOfferBuyingLiabilities
      rw [if_neg late, computed]
      rfl
  | selling =>
      unfold Side.amount Side.getOfferLiabilities getOfferSellingLiabilities
      rw [if_neg late, computed]
      rfl

theorem amount_eq (side : Side) (version : 10 ≤ header.ledgerVersion) (sound : SoundOffer offer) :
    side.amount header offer =
      match side with
      | .buying => (standing offer.price offer.amount).2
      | .selling => (standing offer.price offer.amount).1 := by
  have late : ¬ header.ledgerVersion < 10 := by omega
  have computed := offerLiabilities_eq sound.price sound.nonneg sound.fits
  cases side with
  | buying =>
      unfold Side.amount Side.getOfferLiabilities getOfferBuyingLiabilities
      rw [if_neg late, computed]
      rfl
  | selling =>
      unfold Side.amount Side.getOfferLiabilities getOfferSellingLiabilities
      rw [if_neg late, computed]
      rfl

theorem amount_nonneg (side : Side) (version : 10 ≤ header.ledgerVersion)
    (sound : SoundOffer offer) : 0 ≤ side.amount header offer := by
  have nonneg := standing_nonneg sound.price sound.nonneg
  rw [amount_eq side version sound]
  cases side with
  | buying => exact nonneg.2
  | selling => exact nonneg.1

def adjustedOffer (offer : OfferEntry) : OfferEntry :=
  { offer with amount := adjusted offer.price offer.amount }

theorem SoundOffer.adjust (sound : SoundOffer offer) : SoundOffer (adjustedOffer offer) := by
  have bounds := adjusted_bounds sound.price sound.nonneg
  exact ⟨sound.price, bounds.1, bounds.2.trans sound.fits⟩

theorem amount_adjusted (side : Side) (version : 10 ≤ header.ledgerVersion)
    (sound : SoundOffer offer) (kept : adjusted offer.price offer.amount ≠ 0) :
    side.amount header (adjustedOffer offer) = side.amount header offer ∧
      0 < side.amount header offer := by
  have same := standing_adjusted sound.price sound.fits kept
  rw [amount_eq side version sound, amount_eq side version sound.adjust]
  unfold adjustedOffer
  dsimp only
  rw [same.1]
  cases side with
  | buying => exact ⟨rfl, same.2.2⟩
  | selling => exact ⟨rfl, same.2.1⟩

end Amounts

/-! ### Sums over lists of offers -/

def sumOf (side : Side) (header : LedgerHeader) (asset : Asset) (offers : List OfferEntry) : Int :=
  (offers.map fun offer => if side.asset offer = asset then side.amount header offer else 0).sum

section Sums

variable {side : Side} {header : LedgerHeader} {asset : Asset} {offers : List OfferEntry}

theorem sumOf_append (front back : List OfferEntry) :
    sumOf side header asset (front ++ back) =
      sumOf side header asset front + sumOf side header asset back := by
  simp [sumOf]

theorem sumOf_cons (offer : OfferEntry) :
    sumOf side header asset (offer :: offers) =
      (if side.asset offer = asset then side.amount header offer else 0) +
        sumOf side header asset offers := by
  simp [sumOf]

theorem sumOf_nonneg (side : Side) (asset : Asset) (version : 10 ≤ header.ledgerVersion)
    (sound : ∀ offer ∈ offers, SoundOffer offer) : 0 ≤ sumOf side header asset offers := by
  unfold sumOf
  apply List.sum_nonneg
  intro summand member
  obtain ⟨offer, present, rfl⟩ := List.mem_map.mp member
  split
  · exact amount_nonneg side version (sound offer present)
  · exact le_rfl

theorem sumOf_absent (absent : ∀ offer ∈ offers, side.asset offer ≠ asset) :
    sumOf side header asset offers = 0 := by
  induction offers with
  | nil => rfl
  | cons offer rest ih =>
      rw [sumOf_cons, if_neg (absent offer List.mem_cons_self),
        ih fun other member => absent other (List.mem_cons_of_mem _ member)]
      rfl

end Sums

/-! ### The initial sums -/

def fitting (sum : Int) : Option Int := if sum ≤ INT64_MAX then some sum else none

def Tallied (accountID : AccountID) (side : Side) (header : LedgerHeader)
    (offers : List OfferEntry) (liabilities : InitialLiabilities) : Prop :=
  ∀ asset, liabilities.lookup asset =
    if ∃ offer ∈ offers, side.asset offer = asset then
      some (if asset.issuer? = some accountID then some 0
        else fitting (sumOf side header asset offers))
    else none

theorem addToBalance_eq {balance delta maxBalance : Int} (balanceNonneg : 0 ≤ balance)
    (maxNonneg : 0 ≤ maxBalance) (nonneg : 0 ≤ balance + delta)
    (fits : balance + delta ≤ maxBalance) :
    addToBalance balance delta maxBalance = .ok (some (balance + delta)) := by
  unfold addToBalance assertThat
  rw [if_pos (decide_eq_true balanceNonneg), if_pos (decide_eq_true maxNonneg)]
  simp only [pure_bind]
  split
  · rename_i zero
    rw [zero, add_zero]
    rfl
  rw [if_neg (by omega), if_neg (by omega)]
  rfl

theorem addToBalance_fitting {sum delta : Int} (sumNonneg : 0 ≤ sum) (sumFits : sum ≤ INT64_MAX)
    (nonneg : 0 ≤ delta) : addToBalance sum delta INT64_MAX = .ok (fitting (sum + delta)) := by
  have limit : 0 ≤ INT64_MAX := by decide
  by_cases within : sum + delta ≤ INT64_MAX
  · rw [addToBalance_eq sumNonneg limit (by omega) within, fitting, if_pos within]
  · unfold addToBalance assertThat fitting
    rw [if_pos (decide_eq_true sumNonneg), if_pos (decide_eq_true limit), if_neg within]
    simp only [pure_bind]
    rw [if_neg (by omega), if_neg (by omega), if_pos (by omega)]
    rfl

theorem addLiabilities_tallied {accountID : AccountID} {side : Side} {header : LedgerHeader}
    {offers : List OfferEntry} {liabilities : InitialLiabilities}
    (version : 10 ≤ header.ledgerVersion) (sound : ∀ offer ∈ offers, SoundOffer offer)
    (tallied : Tallied accountID side header offers liabilities) {offer : OfferEntry}
    (soundOffer : SoundOffer offer) :
    ∃ updated, addLiabilities liabilities accountID (side.asset offer)
        (side.amount header offer) = .ok updated ∧
      Tallied accountID side header (offers ++ [offer]) updated := by
  have nonneg := amount_nonneg side version soundOffer
  have sumNonneg := sumOf_nonneg side (side.asset offer) version sound
  -- The sum so far, also where the asset is new.
  have before : (liabilities.lookup (side.asset offer)).getD (some 0) =
      if (side.asset offer).issuer? = some accountID then some 0
      else fitting (sumOf side header (side.asset offer) offers) := by
    rw [tallied (side.asset offer)]
    split
    · rfl
    · rename_i absent
      have zero : sumOf side header (side.asset offer) offers = 0 := by
        apply sumOf_absent
        intro other member same
        exact absent ⟨other, member, same⟩
      rw [zero]
      split <;> rfl
  have added : addLiabilities liabilities accountID (side.asset offer) (side.amount header offer) =
      .ok (liabilities.insert (side.asset offer)
        (if (side.asset offer).issuer? = some accountID then some 0
          else fitting (sumOf side header (side.asset offer) (offers ++ [offer])))) := by
    unfold addLiabilities
    dsimp only
    rw [before]
    by_cases issued : (side.asset offer).issuer? = some accountID
    · rw [if_pos issued, if_pos issued, if_pos issued]
      rfl
    · rw [if_neg issued, if_neg issued, if_neg issued, sumOf_append]
      have single : sumOf side header (side.asset offer) [offer] = side.amount header offer := by
        simp [sumOf]
      rw [single]
      by_cases fits : sumOf side header (side.asset offer) offers ≤ INT64_MAX
      · have kept : fitting (sumOf side header (side.asset offer) offers) =
            some (sumOf side header (side.asset offer) offers) := if_pos fits
        rw [kept]
        dsimp only
        rw [addToBalance_fitting sumNonneg fits nonneg]
        rfl
      · have lost : fitting (sumOf side header (side.asset offer) offers) = none := if_neg fits
        have stillLost : fitting (sumOf side header (side.asset offer) offers +
            side.amount header offer) = none := if_neg (by omega)
        rw [lost, stillLost]
        rfl
  refine ⟨_, added, ?_⟩
  intro asset
  by_cases same : asset = side.asset offer
  · subst same
    have present : ∃ other ∈ offers ++ [offer], side.asset other = side.asset offer :=
      ⟨offer, List.mem_append_right _ (List.mem_singleton.mpr rfl), rfl⟩
    rw [AList.lookup_insert, if_pos present]
  · have others : (∃ other ∈ offers ++ [offer], side.asset other = asset) ↔
        ∃ other ∈ offers, side.asset other = asset := by
      constructor
      · intro ⟨other, member, found⟩
        rcases List.mem_append.mp member with earlier | last
        · exact ⟨other, earlier, found⟩
        · rw [List.mem_singleton.mp last] at found
          exact absurd found.symm same
      · intro ⟨other, member, found⟩
        exact ⟨other, List.mem_append_left _ member, found⟩
    have sums : sumOf side header asset (offers ++ [offer]) = sumOf side header asset offers := by
      rw [sumOf_append]
      have zero : sumOf side header asset [offer] = 0 := by
        apply sumOf_absent
        intro other member found
        rw [List.mem_singleton.mp member] at found
        exact same found.symm
      rw [zero, add_zero]
    rw [AList.lookup_insert_ne same, tallied asset, sums]
    simp only [others]

theorem tallied_nil (accountID : AccountID) (side : Side) (header : LedgerHeader) :
    Tallied accountID side header [] ∅ := by
  intro asset
  simp

theorem initialLiabilities_tallied {accountID : AccountID} {header : LedgerHeader}
    (version : 10 ≤ header.ledgerVersion) (rest : List OfferEntry)
    (soundRest : ∀ offer ∈ rest, SoundOffer offer) {offers : List OfferEntry}
    (sound : ∀ offer ∈ offers, SoundOffer offer) {bought sold : InitialLiabilities}
    (boughtTallied : Tallied accountID .buying header offers bought)
    (soldTallied : Tallied accountID .selling header offers sold) :
    ∃ sums, initialLiabilities header accountID rest (bought, sold) = .ok sums ∧
      Tallied accountID .buying header (offers ++ rest) sums.1 ∧
      Tallied accountID .selling header (offers ++ rest) sums.2 := by
  induction rest generalizing offers bought sold with
  | nil =>
      rw [List.append_nil]
      exact ⟨(bought, sold), rfl, boughtTallied, soldTallied⟩
  | cons offer rest ih =>
      have soundOffer := soundRest offer List.mem_cons_self
      obtain ⟨bought', boughtAdded, boughtTallied'⟩ :=
        addLiabilities_tallied version sound boughtTallied soundOffer
      obtain ⟨sold', soldAdded, soldTallied'⟩ :=
        addLiabilities_tallied version sound soldTallied soundOffer
      have soundMore : ∀ other ∈ offers ++ [offer], SoundOffer other := by
        intro other member
        rcases List.mem_append.mp member with earlier | last
        · exact sound other earlier
        · rw [List.mem_singleton.mp last]
          exact soundOffer
      obtain ⟨sums, ran, final⟩ := ih (fun other member => soundRest other (List.mem_cons_of_mem _ member))
        soundMore boughtTallied' soldTallied'
      rw [List.append_assoc] at final
      refine ⟨sums, ?_, final⟩
      have buying : getOfferBuyingLiabilities header offer = _ :=
        getOfferLiabilities_eq .buying version soundOffer
      have selling : getOfferSellingLiabilities header offer = _ :=
        getOfferLiabilities_eq .selling version soundOffer
      unfold initialLiabilities
      apply except_bind_ok.mpr ⟨_, buying, ?_⟩
      apply except_bind_ok.mpr ⟨_, boughtAdded, ?_⟩
      apply except_bind_ok.mpr ⟨_, selling, ?_⟩
      exact except_bind_ok.mpr ⟨_, soldAdded, ran⟩

/-! ### The final sums -/

def Side.set (side : Side) (liabilities : Liabilities) (amount : Int) : Liabilities :=
  match side with
  | .buying => { liabilities with buying := amount }
  | .selling => { liabilities with selling := amount }

def sums (header : LedgerHeader) (counted : Side → List OfferEntry) (asset : Asset) :
    Liabilities where
  buying := sumOf .buying header asset (counted .buying)
  selling := sumOf .selling header asset (counted .selling)

/-- An asset in which counted offers give the account liabilities. -/
def Counted (accountID : AccountID) (counted : Side → List OfferEntry) (asset : Asset) : Prop :=
  asset.issuer? ≠ some accountID ∧ ∃ side, ∃ offer ∈ counted side, side.asset offer = asset

structure Summed (accountID : AccountID) (header : LedgerHeader)
    (counted : Side → List OfferEntry) (liabilities : Map Asset Liabilities) : Prop where
  present : ∀ asset, Counted accountID counted asset →
    liabilities.lookup asset = some (sums header counted asset)
  absent : ∀ asset, ¬ Counted accountID counted asset → liabilities.lookup asset = none

section Summed

variable {accountID : AccountID} {header : LedgerHeader} {counted : Side → List OfferEntry}
  {liabilities : Map Asset Liabilities}

theorem of_sums (side : Side) (asset : Asset) :
    side.of (sums header counted asset) = sumOf side header asset (counted side) := by
  cases side <;> rfl

theorem summed_nil (accountID : AccountID) (header : LedgerHeader) :
    Summed accountID header (fun _ => []) ∅ where
  present := by
    intro asset ⟨_, _, offer, member, _⟩
    cases member
  absent := fun asset _ => AList.lookup_empty asset

theorem Summed.current (summed : Summed accountID header counted liabilities) {asset : Asset}
    (foreign : asset.issuer? ≠ some accountID) :
    (liabilities.lookup asset).getD ⟨0, 0⟩ = sums header counted asset := by
  by_cases present : ∃ side, ∃ offer ∈ counted side, side.asset offer = asset
  · rw [summed.present asset ⟨foreign, present⟩]
    rfl
  · have zero (side : Side) : sumOf side header asset (counted side) = 0 :=
      sumOf_absent fun offer member same => present ⟨side, offer, member, same⟩
    rw [summed.absent asset fun both => present both.2]
    unfold sums
    rw [zero, zero]
    rfl

theorem sumOf_concat (side : Side) (header : LedgerHeader) (asset : Asset)
    (offers : List OfferEntry) (offer : OfferEntry) :
    sumOf side header asset (offers ++ [offer]) = sumOf side header asset offers +
      if side.asset offer = asset then side.amount header offer else 0 := by
  have nothing : sumOf side header asset [] = 0 := rfl
  rw [sumOf_append, sumOf_cons, nothing, add_zero]

theorem sums_update (side : Side) (offer : OfferEntry) (asset : Asset) :
    sums header (Function.update counted side (counted side ++ [offer])) asset =
      side.set (sums header counted asset) (sumOf side header asset (counted side) +
        if side.asset offer = asset then side.amount header offer else 0) := by
  unfold sums
  cases side with
  | buying =>
      have other : Side.selling ≠ Side.buying := by simp
      rw [Function.update_self, Function.update_of_ne other, sumOf_concat]
      rfl
  | selling =>
      have other : Side.buying ≠ Side.selling := by simp
      rw [Function.update_self, Function.update_of_ne other, sumOf_concat]
      rfl

theorem counted_update {side : Side} {offer : OfferEntry} {asset : Asset} :
    Counted accountID (Function.update counted side (counted side ++ [offer])) asset ↔
      Counted accountID counted asset ∨
        (asset.issuer? ≠ some accountID ∧ side.asset offer = asset) := by
  constructor
  · intro ⟨foreign, which, found, member, same⟩
    by_cases here : which = side
    · subst here
      rw [Function.update_self] at member
      rcases List.mem_append.mp member with earlier | last
      · exact Or.inl ⟨foreign, which, found, earlier, same⟩
      · rw [List.mem_singleton.mp last] at same
        exact Or.inr ⟨foreign, same⟩
    · rw [Function.update_of_ne here] at member
      exact Or.inl ⟨foreign, which, found, member, same⟩
  · intro either
    rcases either with ⟨foreign, which, found, member, same⟩ | ⟨foreign, same⟩
    · refine ⟨foreign, which, found, ?_, same⟩
      by_cases here : which = side
      · subst here
        rw [Function.update_self]
        exact List.mem_append_left _ member
      · rw [Function.update_of_ne here]
        exact member
    · refine ⟨foreign, side, offer, ?_, same⟩
      rw [Function.update_self]
      exact List.mem_append_right _ (List.mem_singleton.mpr rfl)

theorem set_self (side : Side) (liabilities : Liabilities) :
    side.set liabilities (side.of liabilities) = liabilities := by
  cases side <;> rfl

theorem sums_update_other {side : Side} {offer : OfferEntry} {asset : Asset}
    (other : side.asset offer ≠ asset) :
    sums header (Function.update counted side (counted side ++ [offer])) asset =
      sums header counted asset := by
  rw [sums_update, if_neg other, add_zero, ← of_sums, set_self]

theorem addSide_summed (side : Side) (version : 10 ≤ header.ledgerVersion)
    (sound : ∀ side, ∀ offer ∈ counted side, SoundOffer offer)
    (summed : Summed accountID header counted liabilities) {offer : OfferEntry}
    (soundOffer : SoundOffer offer)
    (fits : (side.asset offer).issuer? ≠ some accountID →
      sumOf side header (side.asset offer) (counted side) + side.amount header offer ≤ INT64_MAX)
    (what : String) :
    ∃ updated, addSide liabilities accountID (side.asset offer) side.of side.set
        (side.amount header offer) what = .ok updated ∧
      Summed accountID header (Function.update counted side (counted side ++ [offer])) updated := by
  have nonneg := amount_nonneg side version soundOffer
  unfold addSide
  by_cases issued : (side.asset offer).issuer? = some accountID
  · rw [if_pos issued]
    refine ⟨liabilities, rfl, ?_, ?_⟩
    · intro asset either
      rcases counted_update.mp either with before | ⟨foreign, same⟩
      · have other : side.asset offer ≠ asset := by
          intro same
          rw [same] at issued
          exact before.1 issued
        rw [sums_update_other other]
        exact summed.present asset before
      · rw [same] at issued
        exact absurd issued foreign
    · intro asset neither
      exact summed.absent asset fun before => neither (counted_update.mpr (Or.inl before))
  · have within := fits issued
    have sumNonneg := sumOf_nonneg side (side.asset offer) version (sound side)
    have kept : fitting (sumOf side header (side.asset offer) (counted side) +
        side.amount header offer) = some _ := if_pos within
    rw [if_neg issued]
    dsimp only
    rw [summed.current issued, of_sums, addToBalance_fitting sumNonneg (by omega) nonneg, kept]
    refine ⟨_, rfl, ?_, ?_⟩
    · intro asset either
      by_cases same : side.asset offer = asset
      · subst same
        rw [AList.lookup_insert, sums_update, if_pos rfl]
      · rw [AList.lookup_insert_ne (Ne.symm same), sums_update_other same]
        rcases counted_update.mp either with before | ⟨_, found⟩
        · exact summed.present asset before
        · exact absurd found same
    · intro asset neither
      have other : side.asset offer ≠ asset := by
        intro same
        subst same
        exact neither (counted_update.mpr (Or.inr ⟨issued, rfl⟩))
      rw [AList.lookup_insert_ne (Ne.symm other)]
      exact summed.absent asset fun before => neither (counted_update.mpr (Or.inl before))

theorem keepOffer_summed (version : 10 ≤ header.ledgerVersion) {offers : List OfferEntry}
    (sound : ∀ offer ∈ offers, SoundOffer offer)
    (summed : Summed accountID header (fun _ => offers) liabilities) {offer : OfferEntry}
    (soundOffer : SoundOffer offer)
    (fits : ∀ side : Side, (side.asset offer).issuer? ≠ some accountID →
      sumOf side header (side.asset offer) offers + side.amount header offer ≤ INT64_MAX) :
    ∃ updated, keepOffer header accountID offer liabilities = .ok updated ∧
      Summed accountID header (fun _ => offers ++ [offer]) updated := by
  obtain ⟨bought, first, boughtSummed⟩ := addSide_summed .buying version (fun _ => sound) summed
    soundOffer (fits .buying) "could not add buying liabilities"
  have soundBought : ∀ side, ∀ other ∈ Function.update (fun _ => offers) Side.buying
      (offers ++ [offer]) side, SoundOffer other := by
    intro side other member
    cases side with
    | buying =>
        rw [Function.update_self] at member
        rcases List.mem_append.mp member with earlier | last
        · exact sound other earlier
        · rw [List.mem_singleton.mp last]
          exact soundOffer
    | selling => exact sound other member
  obtain ⟨updated, second, soldSummed⟩ := addSide_summed .selling version soundBought boughtSummed
    soundOffer (fits .selling) "could not add selling liabilities"
  have both : Function.update (Function.update (fun _ => offers) Side.buying (offers ++ [offer]))
      Side.selling (offers ++ [offer]) = fun _ => offers ++ [offer] := by
    funext side
    cases side <;> rfl
  have buying : getOfferBuyingLiabilities header offer = _ :=
    getOfferLiabilities_eq .buying version soundOffer
  have selling : getOfferSellingLiabilities header offer = _ :=
    getOfferLiabilities_eq .selling version soundOffer
  refine ⟨updated, ?_, ?_⟩
  · unfold keepOffer
    apply except_bind_ok.mpr ⟨_, buying, ?_⟩
    apply except_bind_ok.mpr ⟨_, first, ?_⟩
    exact except_bind_ok.mpr ⟨_, selling, second⟩
  · rw [← both]
    exact soldSummed

end Summed

end ViiCore.Herder
