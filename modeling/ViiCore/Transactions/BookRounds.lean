import ViiCore.Transactions.OfferTerms

/-!
The rounds of `convertWithOffers`, at every version: each crosses the best offer that is left on
the book, the claims of all rounds add up to the totals that are returned, and a round after
which the loop goes on has taken an offer off the book, so the loop ends.
-/

namespace ViiCore.Ledger

/-- The comparison of offers by the quotients of their prices, and of equal ones by id. The code
divides floating point numbers; here quotients are the values of any linear order. -/
def OrderBook.byQuotient {Quotient : Type} [LinearOrder Quotient] (quotient : Price → Quotient) :
    OrderBook where
  isBetterOffer lhs rhs :=
    if quotient lhs.2.price < quotient rhs.2.price then true
    else if quotient lhs.2.price = quotient rhs.2.price then lhs.1.offerID < rhs.1.offerID
    else false

end ViiCore.Ledger

namespace ViiCore.Transactions

open ViiCore.Ledger ViiCore.FiniteMap ViiCore.Execution ViiCore.Least

variable {ledger : Ledger} {conversion : Conversion}

/-! ### The order of the book -/

section Quotient

variable {Quotient : Type} [LinearOrder Quotient] (quotient : Price → Quotient)

def quotientRank (entry : OfferKey × OfferEntry) : Quotient ×ₗ Int :=
  toLex (quotient entry.2.price, entry.1.offerID)

theorem byQuotient_ranked :
    Ranked (OrderBook.byQuotient quotient) (quotientRank quotient) fun _ => True := by
  intro left right _ _
  rw [quotientRank, quotientRank, Prod.Lex.toLex_lt_toLex]
  rcases lt_trichotomy (quotient left.2.price) (quotient right.2.price) with below | same | above
  · simp [OrderBook.byQuotient, below]
  · simp [OrderBook.byQuotient, same]
  · simp [OrderBook.byQuotient, above.not_gt, above.ne']

end Quotient

/-! ### Rounds -/

structure Round where
  progress : ConvertProgress
  before : Ledger
  key : OfferKey
  offer : OfferEntry
  crossing : Crossing
  after : Ledger

def Round.next (round : Round) : ConvertProgress :=
  round.progress.cross round.key round.offer round.crossing

def Round.claim (round : Round) : ClaimOfferAtom := round.crossing.claim round.key round.offer

structure Round.Crosses (conversion : Conversion) (round : Round) : Prop where
  best : conversion.book.getBestOffer conversion.sheep conversion.wheat round.before =
    some (round.key, round.offer)
  passed : conversion.filter round.key round.offer = .ok .eKeep
  counted : (round.progress.offerTrail.length : Int) < conversion.maxOffersToCross % 2 ^ 64
  ran : crossBestOffer conversion round.progress round.key round.offer round.before =
    .ok round.crossing round.after
  bounded : round.crossing.checkBounds round.progress = .ok ()
  converts : round.crossing.result ≠ .eOfferCantConvert

theorem Round.Crosses.crossed {round : Round} (crosses : round.Crosses conversion) :
    Crossed round.key round.offer round.crossing round.before round.after := by
  obtain ⟨found, -, -⟩ := OrderBook.getBestOffer_lookup _ _ _ _ _ _ crosses.best
  have ensured := crossBestOffer_crossed conversion round.progress found
  rw [Ensures, wp_of_ok crosses.ran] at ensured
  exact ensured crosses.converts

/-- Rounds one after the other, from the start of the loop to the progress and the ledger that
they lead to. -/
inductive Rounds (conversion : Conversion) (start : ConvertProgress) (ledger : Ledger) :
    List Round → ConvertProgress → Ledger → Prop
  | none : Rounds conversion start ledger [] start ledger
  | snoc {rounds : List Round} {round : Round}
      (earlier : Rounds conversion start ledger rounds round.progress round.before)
      (crosses : round.Crosses conversion) :
      Rounds conversion start ledger (rounds ++ [round]) round.next round.after

/-! ### One turn of the loop -/

def LastStays (rounds : List Round) : Prop :=
  ∃ last, rounds.getLast? = some last ∧ last.crossing.wheatStays = true

inductive StepEnds (conversion : Conversion) (progress : ConvertProgress) (ledger : Ledger) :
    Converted → Ledger → Prop
  | stopped (result : ConvertResult)
      (early : result = .eOK → ledger.header.ledgerVersion < 10) :
      StepEnds conversion progress ledger (progress.finish result) ledger
  | crossed (round : Round) (result : ConvertResult)
      (fromHere : round.progress = progress ∧ round.before = ledger)
      (crosses : round.Crosses conversion)
      (settled : result = .eOK → round.crossing.wheatStays = true ∨ round.next.needMore = false) :
      StepEnds conversion progress ledger (round.next.finish result) round.after

structure StepGoesOn (conversion : Conversion) (progress : ConvertProgress) (ledger : Ledger)
    (next : ConvertProgress) (after : Ledger) (round : Round) : Prop where
  fromHere : round.progress = progress ∧ round.before = ledger
  crosses : round.Crosses conversion
  toThere : round.next = next ∧ round.after = after
  taken : round.crossing.result = .eOfferTaken

theorem convertStep_cases (conversion : Conversion) (progress : ConvertProgress) (ledger : Ledger) :
    Ensures (convertStep conversion progress) ledger fun outcome after =>
      match outcome with
      | .inl converted => StepEnds conversion progress ledger converted after
      | .inr next => ∃ round, StepGoesOn conversion progress ledger next after round := by
  unfold convertStep OrderBook.loadBestOffer
  simp only [Ensures, wp_bind, wp_loadHeader, wp_get, wp_pure]
  cases best : conversion.book.getBestOffer conversion.sheep conversion.wheat ledger with
  | none =>
      apply StepEnds.stopped
      intro ok
      by_contra late
      rw [if_neg late] at ok
      cases ok
  | some entry =>
      obtain ⟨key, offer⟩ := entry
      simp only [wp_bind, wp_computed]
      cases passed : conversion.filter key offer with
      | error fault => trivial
      | ok verdict =>
          cases verdict with
          | eStop crossSelf => exact .stopped _ (fun ok => by cases ok)
          | eKeep =>
              simp only [wp_ite, wp_bind, wp_get, wp_pure]
              constructor
              · intro _
                exact .stopped _ (fun ok => by cases ok)
              · intro counted
                apply Ensures.of_ran
                intro crossing after ran
                cases bounded : crossing.checkBounds progress with
                | error fault => trivial
                | ok bounds =>
                    simp only [wp_computed, wp_set]
                    constructor
                    · intro _
                      exact .stopped _ (fun ok => by cases ok)
                    · intro converts
                      let round : Round := ⟨progress, ledger, key, offer, crossing, after⟩
                      have crosses : round.Crosses conversion :=
                        ⟨best, passed, not_le.mp counted, ran, bounded, converts⟩
                      constructor
                      · intro done
                        apply StepEnds.crossed round .eOK ⟨rfl, rfl⟩ crosses
                        intro _
                        exact done.imp_right Bool.eq_false_iff.mpr
                      · intro _
                        constructor
                        · intro _
                          exact .crossed round .ePartial ⟨rfl, rfl⟩ crosses (fun ok => by cases ok)
                        · intro whole
                          refine ⟨round, ⟨rfl, rfl⟩, crosses, ⟨rfl, rfl⟩, ?_⟩
                          change crossing.result = .eOfferTaken
                          cases result : crossing.result with
                          | eOfferPartial => exact absurd result whole
                          | eOfferTaken => rfl
                          | eOfferCantConvert => exact absurd result converts

/-! ### What the rounds add up to -/

structure Kept (conversion : Conversion) (start : ConvertProgress) (ledger : Ledger)
    (rounds : List Round) (reached : ConvertProgress) (current : Ledger) : Prop where
  version : current.header.ledgerVersion = ledger.header.ledgerVersion
  crosses : ∀ round ∈ rounds, round.Crosses conversion
  trail : reached.offerTrail = start.offerTrail ++ rounds.map Round.claim
  sheep : reached.sheepSend = start.sheepSend + (rounds.map (·.crossing.numSheepSend)).sum
  wheat : reached.wheatReceived =
    start.wheatReceived + (rounds.map (·.crossing.numWheatReceived)).sum
  sheepLeft : reached.sheepSend + reached.maxSheepSend = start.sheepSend + start.maxSheepSend
  wheatLeft :
    reached.wheatReceived + reached.maxWheatReceive = start.wheatReceived + start.maxWheatReceive
  sheepWithin : rounds ≠ [] → 0 ≤ reached.maxSheepSend
  wheatWithin : rounds ≠ [] → 0 ≤ reached.maxWheatReceive
  counted : rounds ≠ [] → (reached.offerTrail.length : Int) ≤ conversion.maxOffersToCross % 2 ^ 64

theorem Rounds.kept {start reached : ConvertProgress} {current : Ledger} {rounds : List Round}
    (made : Rounds conversion start ledger rounds reached current) :
    Kept conversion start ledger rounds reached current := by
  induction made with
  | none =>
      constructor
      · rfl
      · intro round absent
        cases absent
      · simp
      · simp
      · simp
      · rfl
      · rfl
      · exact fun nonempty => absurd rfl nonempty
      · exact fun nonempty => absurd rfl nonempty
      · exact fun nonempty => absurd rfl nonempty
  | @snoc rounds round earlier crosses ih =>
      have within := Crossing.checkBounds_ok crosses.bounded
      have counted := crosses.counted
      constructor
      · rw [crosses.crossed.follows.version, ih.version]
      · intro other member
        rcases List.mem_append.mp member with early | last
        · exact ih.crosses other early
        · rw [List.mem_singleton.mp last]
          exact crosses
      · simp [Round.next, ConvertProgress.cross, ih.trail, Round.claim]
      · simp only [Round.next, ConvertProgress.cross, ih.sheep, List.map_append, List.sum_append,
          List.map_cons, List.map_nil, List.sum_singleton]
        ring
      · simp only [Round.next, ConvertProgress.cross, ih.wheat, List.map_append, List.sum_append,
          List.map_cons, List.map_nil, List.sum_singleton]
        ring
      · rw [← ih.sheepLeft]
        simp only [Round.next, ConvertProgress.cross]
        ring
      · rw [← ih.wheatLeft]
        simp only [Round.next, ConvertProgress.cross]
        ring
      · intro _
        simp only [Round.next, ConvertProgress.cross]
        omega
      · intro _
        simp only [Round.next, ConvertProgress.cross]
        omega
      · intro _
        simp only [Round.next, ConvertProgress.cross, List.length_append, List.length_singleton,
          Nat.cast_add, Nat.cast_one]
        omega

/-- How the loop ended: `eOK` means that a limit is used up, that wheat stays, or, before version
10, that the book is empty. -/
def Settled (version : Nat) (rounds : List Round) (reached : ConvertProgress) :
    ConvertResult → Prop
  | .eOK => version < 10 ∨ reached.needMore = false ∨ LastStays rounds
  | _ => True

theorem settled_of {version : Nat} {rounds : List Round} {reached : ConvertProgress}
    {result : ConvertResult}
    (ok : result = .eOK → version < 10 ∨ reached.needMore = false ∨ LastStays rounds) :
    Settled version rounds reached result := by
  cases result with
  | eOK => exact ok rfl
  | ePartial => trivial
  | eFilterStop crossSelf => trivial
  | eCrossedTooMany => trivial

structure Ended (conversion : Conversion) (start : ConvertProgress) (ledger : Ledger)
    (rounds : List Round) (converted : Converted) (after : Ledger) (reached : ConvertProgress) :
    Prop where
  made : Rounds conversion start ledger rounds reached after
  finished : converted = reached.finish converted.result
  settled : Settled ledger.header.ledgerVersion rounds reached converted.result

theorem StepEnds.ended {start progress : ConvertProgress} {current after : Ledger}
    {rounds : List Round} {converted : Converted}
    (made : Rounds conversion start ledger rounds progress current)
    (ends : StepEnds conversion progress current converted after) :
    ∃ rounds reached, Ended conversion start ledger rounds converted after reached := by
  cases ends with
  | stopped result early =>
      refine ⟨rounds, progress, made, rfl, settled_of ?_⟩
      intro ok
      rw [← made.kept.version]
      exact .inl (early ok)
  | crossed round result fromHere crosses settled =>
      obtain ⟨rfl, rfl⟩ := fromHere
      refine ⟨rounds ++ [round], round.next, made.snoc crosses, rfl, settled_of ?_⟩
      intro ok
      rcases settled ok with stays | enough
      · exact .inr (.inr ⟨round, by simp, stays⟩)
      · exact .inr (.inl enough)

theorem convertLoop_ended (fuel : Nat) {start progress : ConvertProgress} {current : Ledger}
    {rounds : List Round} (made : Rounds conversion start ledger rounds progress current) :
    Ensures (convertLoop conversion fuel progress) current fun converted after =>
      ∃ rounds reached, Ended conversion start ledger rounds converted after reached := by
  induction fuel generalizing progress current rounds with
  | zero => trivial
  | succ fuel ih =>
      unfold convertLoop
      apply Ensures.bind (convertStep_cases conversion progress current)
      intro outcome after ended
      cases outcome with
      | inl converted => exact ended.ended made
      | inr next =>
          obtain ⟨round, goesOn⟩ := ended
          obtain ⟨rfl, rfl⟩ := goesOn.fromHere
          obtain ⟨rfl, rfl⟩ := goesOn.toThere
          exact ih (made.snoc goesOn.crosses)

def ConvertProgress.start (maxSheepSend maxWheatReceive : Int) : ConvertProgress :=
  { maxSheepSend, maxWheatReceive, sheepSend := 0, wheatReceived := 0, offerTrail := [] }

theorem convertWithOffers_ended (conversion : Conversion) (maxSheepSend maxWheatReceive : Int) :
    Ensures (convertWithOffers conversion maxSheepSend maxWheatReceive) ledger
      fun converted after => ∃ rounds reached,
        Ended conversion (.start maxSheepSend maxWheatReceive) ledger rounds converted after
          reached := by
  unfold convertWithOffers
  simp only [Ensures, wp_ite, wp_bind, wp_get, wp_pure]
  constructor
  · intro _
    exact convertLoop_ended _ .none
  · intro enough
    refine ⟨[], .start maxSheepSend maxWheatReceive, .none, rfl, settled_of ?_⟩
    intro _
    exact .inr (.inl (Bool.eq_false_iff.mpr enough))

/-! ### The loop ends -/

/-- The loop variables and the ledger after a number of turns, where the loop goes on so long. -/
def continued (conversion : Conversion) :
    Nat → ConvertProgress → Ledger → Option (ConvertProgress × Ledger)
  | 0, progress, ledger => some (progress, ledger)
  | turns + 1, progress, ledger =>
      match convertStep conversion progress ledger with
      | .ok (.inr next) after => continued conversion turns next after
      | _ => none

theorem StepGoesOn.removes {progress next : ConvertProgress} {after : Ledger} {round : Round}
    (goesOn : StepGoesOn conversion progress ledger next after round) :
    after.offers.entries.length + 1 = ledger.offers.entries.length := by
  obtain ⟨rfl, rfl⟩ := goesOn.fromHere
  obtain ⟨-, rfl⟩ := goesOn.toThere
  obtain ⟨found, -, -⟩ := OrderBook.getBestOffer_lookup _ _ _ _ _ _ goesOn.crosses.best
  rw [goesOn.crosses.crossed.taken goesOn.taken]
  have present : round.key ∈ round.before.offers := by
    rw [← AList.lookup_isSome, found]
    rfl
  obtain ⟨offer, early, late, -, whole, erased⟩ := List.exists_of_kerase present
  change (List.kerase round.key round.before.offers.entries).length + 1 = _
  rw [erased, whole]
  simp only [List.length_append, List.length_cons]
  omega

theorem continued_ends (progress : ConvertProgress) (turns : Nat)
    (enough : ledger.offers.entries.length < turns) :
    continued conversion turns progress ledger = none := by
  induction turns generalizing progress ledger with
  | zero => exact absurd enough (Nat.not_lt_zero _)
  | succ turns ih =>
      unfold continued
      have cases := convertStep_cases conversion progress ledger
      split
      · rename_i next after ran
        rw [Ensures, wp_of_ok ran] at cases
        obtain ⟨round, goesOn⟩ := cases
        have removed := goesOn.removes
        exact ih next (by omega)
      · rfl

theorem convertLoop_enough (turns extra : Nat) (progress : ConvertProgress)
    (ends : continued conversion turns progress ledger = none) :
    convertLoop conversion (turns + extra) progress ledger =
      convertLoop conversion turns progress ledger := by
  induction turns generalizing progress ledger with
  | zero => cases ends
  | succ turns ih =>
      rw [Nat.add_right_comm]
      unfold convertLoop
      cases ran : convertStep conversion progress ledger with
      | error fault after => rw [bind_of_error ran, bind_of_error ran]
      | ok outcome after =>
          rw [bind_of_ok ran, bind_of_ok ran]
          cases outcome with
          | inl converted => rfl
          | inr next =>
              simp only [continued, ran] at ends
              exact ih next ends

/-! ### The whole conversion -/

structure Tallied {Rank : Type} [LinearOrder Rank] (rank : OfferKey × OfferEntry → Rank)
    (conversion : Conversion) (maxSheepSend maxWheatReceive : Int) (ledger : Ledger)
    (converted : Converted) (after : Ledger) (rounds : List Round) : Prop where
  made : ∃ reached,
    Rounds conversion (.start maxSheepSend maxWheatReceive) ledger rounds reached after
  trail : converted.offerTrail = rounds.map Round.claim
  sheep : (converted.offerTrail.map ClaimOfferAtom.amountBought).sum = converted.sheepSend
  wheat : (converted.offerTrail.map ClaimOfferAtom.amountSold).sum = converted.wheatReceived
  sheepWithin : 0 ≤ maxSheepSend → converted.sheepSend ≤ maxSheepSend
  wheatWithin : 0 ≤ maxWheatReceive → converted.wheatReceived ≤ maxWheatReceive
  counted : 0 ≤ conversion.maxOffersToCross →
    (converted.offerTrail.length : Int) ≤ conversion.maxOffersToCross
  best : ∀ round ∈ rounds,
    LeastOf rank (fun item => round.before.offers.lookup item.1 = some item.2 ∧
      item.2.buying = conversion.sheep ∧ item.2.selling = conversion.wheat)
      (some (round.key, round.offer))
  settled : 10 ≤ ledger.header.ledgerVersion → converted.result = .eOK →
    maxSheepSend ≤ converted.sheepSend ∨ maxWheatReceive ≤ converted.wheatReceived ∨
      LastStays rounds

theorem Ended.tallied {Quotient : Type} [LinearOrder Quotient] {quotient : Price → Quotient}
    (quoted : conversion.book = .byQuotient quotient) {maxSheepSend maxWheatReceive : Int}
    {rounds : List Round} {converted : Converted} {after : Ledger} {reached : ConvertProgress}
    (ended : Ended conversion (.start maxSheepSend maxWheatReceive) ledger rounds converted after
      reached) :
    Tallied (quotientRank quotient) conversion maxSheepSend maxWheatReceive ledger converted after
      rounds := by
  have kept := ended.made.kept
  have sheepLeft := kept.sheepLeft
  have wheatLeft := kept.wheatLeft
  simp only [ConvertProgress.start] at sheepLeft wheatLeft
  have trail : reached.offerTrail = rounds.map Round.claim := kept.trail
  have sheepSend : reached.sheepSend = 0 + _ := kept.sheep
  have wheatReceived : reached.wheatReceived = 0 + _ := kept.wheat
  have settled := ended.settled
  rw [ended.finished]
  constructor
  · exact ⟨reached, ended.made⟩
  · exact trail
  · simp only [ConvertProgress.finish, trail, sheepSend, List.map_map, zero_add]
    rfl
  · simp only [ConvertProgress.finish, trail, wheatReceived, List.map_map, zero_add]
    rfl
  · intro nonneg
    simp only [ConvertProgress.finish]
    by_cases empty : rounds = []
    · simp only [empty, List.map_nil, List.sum_nil] at sheepSend
      omega
    · have within := kept.sheepWithin empty
      omega
  · intro nonneg
    simp only [ConvertProgress.finish]
    by_cases empty : rounds = []
    · simp only [empty, List.map_nil, List.sum_nil] at wheatReceived
      omega
    · have within := kept.wheatWithin empty
      omega
  · intro nonneg
    simp only [ConvertProgress.finish]
    by_cases empty : rounds = []
    · rw [trail, empty]
      exact nonneg
    · have below := kept.counted empty
      omega
  · intro round member
    rw [← (kept.crosses round member).best, quoted]
    exact getBestOffer_least (byQuotient_ranked quotient) (fun _ _ _ => trivial)
  · intro version ok
    rw [show converted.result = .eOK from ok] at settled
    rcases settled with early | enough | stays
    · omega
    · simp only [ConvertProgress.needMore, decide_eq_false_iff_not] at enough
      simp only [ConvertProgress.finish]
      omega
    · exact .inr (.inr stays)

/-- For every book, limits and filter the loop of `convertWithOffers` ends, and what it returns is
tallied from rounds that each crossed the best offer left. -/
theorem convertWithOffers_tallied {Quotient : Type} [LinearOrder Quotient]
    (quotient : Price → Quotient) (conversion : Conversion)
    (quoted : conversion.book = .byQuotient quotient) (maxSheepSend maxWheatReceive : Int)
    (ledger : Ledger) :
    (∀ turns, ledger.offers.entries.length < turns →
      continued conversion turns (.start maxSheepSend maxWheatReceive) ledger = none ∧
      convertLoop conversion turns (.start maxSheepSend maxWheatReceive) ledger =
        convertLoop conversion (ledger.offers.entries.length + 1)
          (.start maxSheepSend maxWheatReceive) ledger) ∧
      ∀ converted after,
        convertWithOffers conversion maxSheepSend maxWheatReceive ledger = .ok converted after →
        ∃ rounds, Tallied (quotientRank quotient) conversion maxSheepSend maxWheatReceive ledger
          converted after rounds := by
  constructor
  · intro turns enough
    refine ⟨continued_ends _ turns enough, ?_⟩
    obtain ⟨extra, rfl⟩ := Nat.exists_eq_add_of_lt enough
    rw [Nat.add_right_comm]
    exact convertLoop_enough _ extra _ (continued_ends _ _ (Nat.lt_succ_self _))
  · intro converted after ran
    obtain ⟨rounds, reached, ended⟩ :=
      (wp_of_ok ran).mp (convertWithOffers_ended conversion maxSheepSend maxWheatReceive)
    exact ⟨rounds, ended.tallied quoted⟩

def tradingConversion : Conversion where
  book := .byQuotient Price.ratio
  sheep := .native
  wheat := tradedAsset
  isPathPayment := true
  filter _ _ := .ok .eKeep
  maxOffersToCross := 1000

/-- Account 4 also sells the asset, 12 at one half and 8 at three halves. -/
def crowdedLedger : Ledger :=
  { tradingLedger with
    accounts := tradingLedger.accounts.insert 4 (trader 1000 3 (some ⟨18, 0⟩))
    trustLines := tradingLedger.trustLines.insert ⟨4, tradedAsset⟩
      { balance := 20, limit := 100, flags := AUTHORIZED_FLAG, ext := some ⟨0, 20⟩ }
    offers := tradingLedger.offers.insert ⟨4, 8⟩
        { selling := tradedAsset, buying := .native, amount := 8, price := ⟨3, 2⟩, flags := 0 }
      |>.insert ⟨4, 9⟩
        { selling := tradedAsset, buying := .native, amount := 12, price := ⟨1, 2⟩, flags := 0 } }

/-- Of 25 that are wanted two offers are taken whole and 3 come from the dearest. -/
theorem convertWithOffers_tallied_three :
    ∃ converted after rounds,
      convertWithOffers tradingConversion 100 25 crowdedLedger = .ok converted after ∧
      converted.result = .eOK ∧
      converted.offerTrail.map (fun claim => (claim.offerID, claim.amountSold)) =
        [(9, 12), (7, 10), (8, 3)] ∧
      Tallied (quotientRank Price.ratio) tradingConversion 100 25 crowdedLedger converted after
        rounds := by
  have succeeds : (match convertWithOffers tradingConversion 100 25 crowdedLedger with
      | .ok converted _ => decide (converted.result = .eOK ∧
          converted.offerTrail.map (fun claim => (claim.offerID, claim.amountSold)) =
            [(9, 12), (7, 10), (8, 3)])
      | .error _ _ => false) = true := by
    decide +kernel
  split at succeeds
  · rename_i converted after ran
    obtain ⟨result, claims⟩ := of_decide_eq_true succeeds
    obtain ⟨rounds, tallied⟩ := (convertWithOffers_tallied Price.ratio tradingConversion rfl 100 25
      crowdedLedger).2 converted after ran
    exact ⟨converted, after, rounds, ran, result, claims, tallied⟩
  · cases succeeds

end ViiCore.Transactions
