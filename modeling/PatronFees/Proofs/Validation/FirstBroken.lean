import PatronFees.Proofs.Money.Lifted
import PatronFees.Proofs.Validation

namespace PatronFees

/-!
# The first rule broken decides

What a check answers is decided by rules in their order: every account must be
there, the amount must be one above zero, no account may block the request, and
the amount may not exceed the ceiling. Whether the ceiling is exactly what is owed
or refundable depends on the sums behind it: beyond `2 ^ 96` units of the scale
they lose digits without leaving the range of decimals.
-/

namespace Refund

/-- The amounts that a history has of some kinds. -/
def amountsOf
    (kinds : List ActionKind)
    (history : List Posting) : List Money :=
  (history.filter fun posting =>
    kinds.any fun kind => posting.kind? == some kind).map (·.amount)

/-- The value that is refundable on a history, exactly and in finest units. -/
def exactlyRefundable (history : List Posting) : Int :=
  Money.unitsTogether (amountsOf [.pay, .transfer] history) -
    Money.unitsTogether (amountsOf [.refund] history)

/-- No sum or difference over a history leaves the range at a scale. -/
structure KeepsDigits
    (scale : Nat)
    (history : List Posting) : Prop where
  received : Money.AddUpAt scale (amountsOf [.pay, .transfer] history)
  refunded : Money.AddUpAt scale (amountsOf [.refund] history)
  fits : Money.FitsAt scale (exactlyRefundable history)

/-- What is refundable is exact while no digits are lost. -/
theorem KeepsDigits.refundable_eq
    {scale : Nat}
    {history : List Posting}
    (keeps : KeepsDigits scale history) :
    ∃ left,
      refundable history scale = .ok left ∧
        left.HasAllDigits ∧
        left.units = exactlyRefundable history := by
  obtain ⟨taken, takenSum, takenScale, takenDigits, takenUnits⟩ := keeps.received.sum_eq
  obtain ⟨given, givenSum, givenScale, givenDigits, givenUnits⟩ := keeps.refunded.sum_eq
  have same := givenScale.trans takenScale.symm
  have difference :
      exactlyRefundable history =
        (taken.minorUnits - given.minorUnits) *
          tenTo (Money.maxScale - min scale Money.maxScale) := by
    rw [exactlyRefundable, ← takenUnits, ← givenUnits, Money.units_eq,
      Money.units_eq given, givenScale, takenScale, Int.sub_mul]
  have fits := keeps.fits
  rw [difference, Money.fitsAt_iff] at fits
  obtain ⟨left, subtracted, leftScale, leftUnits⟩ :=
    Money.subtract_eq same (Money.minorUnits_lt takenDigits)
      (Money.minorUnits_lt givenDigits) fits
  refine ⟨left, ?_, Money.hasAllDigits_of_lt (leftUnits ▸ fits), ?_⟩
  · rw [amountsOf] at takenSum givenSum
    simp only [refundable, sumOf, takenSum, givenSum, Outcome.ok_bind, subtracted]
  · rw [difference, Money.units_eq, leftUnits, leftScale, takenScale]

end Refund

namespace Validation

/-- The first identifier that no account has. -/
def firstMissing?
    (ids : List AccountId)
    (accounts : AccountBook) : Option AccountId :=
  ids.find? fun id => (accounts.find? id).isNone

/-- Nothing above zero can be read at a scale from what was entered. -/
inductive IsNoAmount (scale : Nat) : Option String → Prop where
  | missing :
      IsNoAmount scale none
  | unreadable
      {text : String}
      (unread : Decimal.read? (Text.trim text.toList) = none) :
      IsNoAmount scale (some text)
  | notPositive
      {text : String}
      {value : Decimal}
      (read : Decimal.read? (Text.trim text.toList) = some value)
      (rounded : (Money.ofDecimal value scale).minorUnits ≤ 0) :
      IsNoAmount scale (some text)

/-- What was entered asks for an amount: a decimal that is above zero at a scale. -/
inductive AsksFor (scale : Nat) : Option String → Money → Prop where
  | amount
      {text : String}
      {value : Decimal}
      (read : Decimal.read? (Text.trim text.toList) = some value)
      (positive : 0 < (Money.ofDecimal value scale).minorUnits) :
      AsksFor scale (some text) (Money.ofDecimal value scale)

/--
A cancellation stops at every closed account, a refund at none, and other requests
at those on which nothing is owed.
-/
def stopsAt
    (rules : Validation)
    (account : Account) : Bool :=
  rules == .cancellation || rules == .settlement && account.remaining.isZero

/-- The first closed account that a request stops at. -/
def firstBlocked?
    (rules : Validation)
    (targets : List Account) : Option Account :=
  targets.find? fun account => account.isClosed && rules.stopsAt account

/-- The amount that a request may not exceed. -/
def ceiling
    (rules : Validation)
    (targets : List Account)
    (history : List Posting)
    (scale : Nat) : Outcome Money :=
  if rules = .refunding then
    Refund.refundable history scale
  else
    Money.sum (targets.map (·.remaining)) scale

/-- The ceiling's value, exactly and in finest units. -/
def exactCeiling
    (rules : Validation)
    (targets : List Account)
    (history : List Posting) : Int :=
  if rules = .refunding then
    Refund.exactlyRefundable history
  else
    Money.unitsTogether (targets.map (·.remaining))

/-- The sums behind the ceiling lose no digits at a scale. -/
def KeepsDigits
    (rules : Validation)
    (targets : List Account)
    (history : List Posting)
    (scale : Nat) : Prop :=
  if rules = .refunding then
    Refund.KeepsDigits scale history
  else
    Money.AddUpAt scale (targets.map (·.remaining))

/-- The answers to a request, by the first rule that it breaks. -/
inductive Decides
    (rules : Validation)
    (ids : List AccountId)
    (accounts : AccountBook)
    (history : List Posting)
    (entered : Option String)
    (scale : Nat) : Outcome Preview → Prop where
  | notFound
      {id : AccountId}
      (missing : firstMissing? ids accounts = some id) :
      Decides rules ids accounts history entered scale
        (Outcome.fail (.accountNotFound id))
  | invalidAmount
      (found : firstMissing? ids accounts = none)
      (asks : rules ≠ .cancellation)
      (noAmount : IsNoAmount scale entered) :
      Decides rules ids accounts history entered scale
        (Outcome.fail (.invalidAmount (entered.getD "")))
  | alreadyClosed
      {account : Account}
      (found : firstMissing? ids accounts = none)
      (asks : rules ≠ .cancellation → ∃ amount, AsksFor scale entered amount)
      (blocked : rules.firstBlocked? (accounts.findEach ids) = some account) :
      Decides rules ids accounts history entered scale
        (Outcome.fail (.alreadyClosed account.id))
  | exceeds
      {amount available : Money}
      (found : firstMissing? ids accounts = none)
      (asks : rules ≠ .cancellation)
      (asked : AsksFor scale entered amount)
      (free : rules.firstBlocked? (accounts.findEach ids) = none)
      (measured :
        rules.ceiling (accounts.findEach ids) history scale = .ok available)
      (tooMuch : available < amount) :
      Decides rules ids accounts history entered scale
        (Outcome.fail (.exceedsAvailable amount.text available.text))
  | cancels
      {owed : Money}
      (found : firstMissing? ids accounts = none)
      (cancelling : rules = .cancellation)
      (free : rules.firstBlocked? (accounts.findEach ids) = none)
      (measured : rules.ceiling (accounts.findEach ids) history scale = .ok owed) :
      Decides rules ids accounts history entered scale
        (.ok ⟨owed, Money.zero scale⟩)
  | accepts
      {amount available left : Money}
      (found : firstMissing? ids accounts = none)
      (asks : rules ≠ .cancellation)
      (asked : AsksFor scale entered amount)
      (free : rules.firstBlocked? (accounts.findEach ids) = none)
      (measured :
        rules.ceiling (accounts.findEach ids) history scale = .ok available)
      (enough : amount ≤ available)
      (leaves : available.subtract amount = .ok left) :
      Decides rules ids accounts history entered scale
        (.ok ⟨amount, left⟩)

section Reading

variable {scale : Nat} {entered : Option String} {amount : Money}

theorem readPositive_of_noAmount
    (noAmount : IsNoAmount scale entered) :
    readPositive entered scale =
      Outcome.fail (.invalidAmount (entered.getD "")) := by
  cases noAmount with
  | missing =>
      rfl
  | unreadable unread =>
      simp only [readPositive, Option.getD_some, Money.read, unread]
      rfl
  | @notPositive text value read rounded =>
      have notPositive : (Money.ofDecimal value scale).isPositive = false :=
        Bool.eq_false_iff.mpr fun positive =>
          Int.not_lt.mpr rounded ((Money.isPositive_iff _).mp positive)
      have isRead : Money.read text scale = .ok (Money.ofDecimal value scale) := by
        simp only [Money.read, read]
      rw [readPositive_of_read isRead, notPositive]
      rfl

theorem readPositive_of_asked
    (asked : AsksFor scale entered amount) :
    readPositive entered scale = .ok amount := by
  obtain @⟨text, value, read, positive⟩ := asked
  have isRead : Money.read text scale = .ok (Money.ofDecimal value scale) := by
    simp only [Money.read, read]
  rw [readPositive_of_read isRead, (Money.isPositive_iff _).mpr positive]
  rfl

/-- What was entered asks for an amount, or it is none. -/
theorem noAmount_or_asked
    (scale : Nat)
    (entered : Option String) :
    IsNoAmount scale entered ∨ ∃ amount, AsksFor scale entered amount := by
  cases entered with
  | none =>
      exact .inl .missing
  | some text =>
      cases read : Decimal.read? (Text.trim text.toList) with
      | none =>
          exact .inl (.unreadable read)
      | some value =>
          rcases Int.lt_or_le 0 (Money.ofDecimal value scale).minorUnits with
            positive | rounded
          · exact .inr ⟨_, .amount read positive⟩
          · exact .inl (.notPositive read rounded)

/-- An amount that was asked for is above zero at the scale. -/
theorem AsksFor.amount_pos
    (asked : AsksFor scale entered amount) :
    amount.scale = min scale Money.maxScale ∧ 0 < amount.minorUnits := by
  obtain ⟨read, positive⟩ := asked
  exact ⟨rfl, positive⟩

end Reading

section Decision

variable {rules : Validation} {ids : List AccountId} {accounts : AccountBook}
  {history : List Posting} {entered : Option String} {scale : Nat}

/-- Every account is there when no identifier is the first without one. -/
theorem found_of_firstMissing?
    (found : firstMissing? ids accounts = none) :
    ∀ id ∈ ids, (accounts.find? id).isSome := by
  intro id member
  have present := List.find?_eq_none.mp found id member
  rwa [Option.isNone_iff_eq_none, ← ne_eq, ← Option.isSome_iff_ne_none] at present

/-- The first identifier without an account is what is reported. -/
theorem findAll_of_missing
    {id : AccountId}
    (missing : firstMissing? ids accounts = some id) :
    findAll ids accounts = Outcome.fail (.accountNotFound id) := by
  induction ids with
  | nil =>
      cases missing
  | cons first rest inductionHypothesis =>
      rw [firstMissing?, List.find?_cons] at missing
      rw [findAll, List.mapM_cons]
      cases present : accounts.find? first with
      | none =>
          rw [present] at missing
          obtain rfl := Option.some.inj missing
          rfl
      | some account =>
          rw [present] at missing
          have later := inductionHypothesis missing
          rw [findAll] at later
          rw [Outcome.ok_bind, later]
          rfl

theorem refuseClosed_of_free
    {targets : List Account}
    (free : rules.firstBlocked? targets = none) :
    refuseClosed rules.stopsAt targets = .ok () := by
  rw [firstBlocked?] at free
  rw [refuseClosed, free]

theorem refuseClosed_of_blocked
    {targets : List Account}
    {account : Account}
    (blocked : rules.firstBlocked? targets = some account) :
    refuseClosed rules.stopsAt targets =
      Outcome.fail (.alreadyClosed account.id) := by
  rw [firstBlocked?] at blocked
  rw [refuseClosed, blocked]

/-- Only an overflow keeps a ceiling from being measured. -/
theorem halt_of_ceiling
    {targets : List Account}
    {halt : Halt}
    (halted : rules.ceiling targets history scale = .error halt) :
    ∃ operation, halt = .overflow operation := by
  rw [ceiling] at halted
  split at halted
  next =>
    exact Refund.halt_of_refundable halted
  next =>
    exact ⟨_, Money.halt_of_foldlM_add halted⟩

section Found

variable (found : firstMissing? ids accounts = none)

include found

/-- Without an overflow, what is owed on accounts that are there is added up. -/
theorem exists_owed
    (noOverflow :
      ∀ operation,
        rules.check ids accounts history entered scale ≠
          .error (.overflow operation)) :
    ∃ owed, Money.sum ((accounts.findEach ids).map (·.remaining)) scale = .ok owed := by
  cases summed : Money.sum ((accounts.findEach ids).map (·.remaining)) scale with
  | ok owed =>
      exact ⟨owed, rfl⟩
  | error halt =>
      obtain rfl := Money.halt_of_foldlM_add summed
      refine (noOverflow .addition ?_).elim
      rw [check, findAll_of_found (found_of_firstMissing? found), Outcome.ok_bind,
        summed]
      rfl

/-- How an amount is checked, where what is owed can be added up. -/
theorem check_of_asks
    {owed : Money}
    (summed : Money.sum ((accounts.findEach ids).map (·.remaining)) scale = .ok owed)
    (asks : rules ≠ .cancellation) :
    rules.check ids accounts history entered scale = do
      let requested ← readPositive entered scale
      refuseClosed rules.stopsAt (accounts.findEach ids)
      let available ← rules.ceiling (accounts.findEach ids) history scale
      let left ← within requested available
      return ⟨requested, left⟩ := by
  rw [check, findAll_of_found (found_of_firstMissing? found), Outcome.ok_bind, summed,
    Outcome.ok_bind]
  cases rules with
  | cancellation =>
      exact (asks rfl).elim
  | settlement =>
      rw [ceiling, if_neg (by decide), summed]
      rfl
  | refunding =>
      have free : firstBlocked? .refunding (accounts.findEach ids) = none :=
        List.find?_eq_none.mpr fun account _ blocked => by
          rw [Bool.and_eq_true] at blocked
          exact Bool.noConfusion blocked.2
      rw [ceiling, if_pos rfl, refuseClosed_of_free free]
      rfl

/-- How a cancellation is checked, where what is owed can be added up. -/
theorem check_of_cancels
    {owed : Money}
    (summed : Money.sum ((accounts.findEach ids).map (·.remaining)) scale = .ok owed) :
    check .cancellation ids accounts history entered scale = do
      refuseClosed (stopsAt .cancellation) (accounts.findEach ids)
      return ⟨owed, Money.zero scale⟩ := by
  rw [check, findAll_of_found (found_of_firstMissing? found), Outcome.ok_bind, summed]
  rfl

end Found

/-- Without an overflow, the first rule broken decides what a check answers. -/
theorem decides_check
    (noOverflow :
      ∀ operation,
        rules.check ids accounts history entered scale ≠
          .error (.overflow operation)) :
    rules.Decides ids accounts history entered scale
      (rules.check ids accounts history entered scale) := by
  cases found : firstMissing? ids accounts with
  | some id =>
      rw [check, findAll_of_missing found]
      exact .notFound found
  | none =>
      obtain ⟨owed, summed⟩ := exists_owed found noOverflow
      by_cases cancelling : rules = .cancellation
      · subst cancelling
        rw [check_of_cancels found summed]
        cases free : firstBlocked? .cancellation (accounts.findEach ids) with
        | some account =>
            rw [refuseClosed_of_blocked free]
            exact .alreadyClosed found (fun asks => (asks rfl).elim) free
        | none =>
            rw [refuseClosed_of_free free]
            exact .cancels found rfl free summed
      · rw [check_of_asks found summed cancelling] at noOverflow ⊢
        rcases noAmount_or_asked scale entered with noAmount | ⟨amount, asked⟩
        · rw [readPositive_of_noAmount noAmount]
          exact .invalidAmount found cancelling noAmount
        · rw [readPositive_of_asked asked, Outcome.ok_bind] at noOverflow ⊢
          cases free : rules.firstBlocked? (accounts.findEach ids) with
          | some account =>
              rw [refuseClosed_of_blocked free]
              exact .alreadyClosed found (fun _ => ⟨amount, asked⟩) free
          | none =>
              rw [refuseClosed_of_free free, Outcome.ok_bind] at noOverflow ⊢
              cases measured :
                  rules.ceiling (accounts.findEach ids) history scale with
              | error halt =>
                  obtain ⟨operation, rfl⟩ := halt_of_ceiling measured
                  rw [measured] at noOverflow
                  exact (noOverflow operation rfl).elim
              | ok available =>
                  rw [measured, Outcome.ok_bind, within] at noOverflow
                  rw [Outcome.ok_bind, within]
                  by_cases tooMuch : available < amount
                  · rw [if_pos tooMuch]
                    exact .exceeds found cancelling asked free measured tooMuch
                  · rw [if_neg tooMuch] at noOverflow ⊢
                    cases leaves : available.subtract amount with
                    | error halt =>
                        rw [leaves] at noOverflow
                        rw [Money.subtract] at leaves
                        split at leaves
                        next =>
                          cases leaves
                        next =>
                          obtain rfl := Except.error.inj leaves
                          exact (noOverflow _ rfl).elim
                    | ok left =>
                        exact .accepts found cancelling asked free measured
                          (Int.not_lt.mp tooMuch) leaves

/-- What the first rule broken decides is what a check answers. -/
theorem check_of_decides
    (noOverflow :
      ∀ operation,
        rules.check ids accounts history entered scale ≠
          .error (.overflow operation))
    {outcome : Outcome Preview}
    (decides : rules.Decides ids accounts history entered scale outcome) :
    rules.check ids accounts history entered scale = outcome := by
  cases decides with
  | notFound missing =>
      rw [check, findAll_of_missing missing]
      rfl
  | invalidAmount found asks noAmount =>
      obtain ⟨owed, summed⟩ := exists_owed found noOverflow
      rw [check_of_asks found summed asks, readPositive_of_noAmount noAmount]
      rfl
  | alreadyClosed found asks blocked =>
      obtain ⟨owed, summed⟩ := exists_owed found noOverflow
      by_cases cancelling : rules = .cancellation
      · subst cancelling
        rw [check_of_cancels found summed, refuseClosed_of_blocked blocked]
        rfl
      · obtain ⟨amount, asked⟩ := asks cancelling
        rw [check_of_asks found summed cancelling, readPositive_of_asked asked,
          Outcome.ok_bind, refuseClosed_of_blocked blocked]
        rfl
  | exceeds found asks asked free measured tooMuch =>
      obtain ⟨owed, summed⟩ := exists_owed found noOverflow
      rw [check_of_asks found summed asks, readPositive_of_asked asked,
        Outcome.ok_bind, refuseClosed_of_free free, Outcome.ok_bind, measured,
        Outcome.ok_bind, within, if_pos tooMuch]
      rfl
  | cancels found cancelling free measured =>
      subst cancelling
      rw [ceiling, if_neg (by decide)] at measured
      rw [check_of_cancels found measured, refuseClosed_of_free free]
      rfl
  | @accepts amount available left found asks asked free measured enough leaves =>
      obtain ⟨owed, summed⟩ := exists_owed found noOverflow
      have notMore : ¬ available < amount := Int.not_lt.mpr enough
      rw [check_of_asks found summed asks, readPositive_of_asked asked,
        Outcome.ok_bind, refuseClosed_of_free free, Outcome.ok_bind, measured,
        Outcome.ok_bind, within, if_neg notMore, leaves]
      rfl

/-- The ceiling is measured at the scale. -/
theorem scale_of_ceiling
    {targets : List Account}
    {available : Money}
    (measured : rules.ceiling targets history scale = .ok available) :
    available.scale = min scale Money.maxScale := by
  rw [ceiling] at measured
  split at measured
  next =>
    obtain ⟨received, summed, rest⟩ := Outcome.bind_eq_ok_iff.mp measured
    obtain ⟨refunded, -, subtracted⟩ := Outcome.bind_eq_ok_iff.mp rest
    exact (Money.scale_of_subtract subtracted).trans (Money.scale_of_foldlM_add summed)
  next =>
    exact Money.scale_of_foldlM_add measured

/-- What is allowed and what remains make up a ceiling that has all its digits. -/
theorem Decides.adds_up
    {preview : Preview}
    {available : Money}
    (decides : rules.Decides ids accounts history entered scale (.ok preview))
    (measured :
      rules.ceiling (accounts.findEach ids) history scale = .ok available)
    (allDigits : available.HasAllDigits) :
    preview.allowed.units + preview.remaining.units = available.units := by
  cases decides with
  | cancels found cancelling free isMeasured =>
      obtain rfl := Except.ok.inj (isMeasured.symm.trans measured)
      have nothing : (Money.zero scale).units = 0 := by
        rw [Money.units_eq, Money.minorUnits_zero, Int.zero_mul]
      rw [nothing, Int.add_zero]
  | @accepts amount most left found asks asked free isMeasured enough leaves =>
      obtain rfl : available = most := Except.ok.inj (measured.symm.trans isMeasured)
      obtain ⟨amountScale, positive⟩ := asked.amount_pos
      have same := amountScale.trans (scale_of_ceiling measured).symm
      have inRange := Money.minorUnits_lt allDigits
      rw [Money.le_iff same.symm] at enough
      obtain ⟨difference, subtracted, leftScale, leftUnits⟩ :=
        Money.subtract_eq same inRange (by omega) (by omega)
      obtain rfl : left = difference := Except.ok.inj (leaves.symm.trans subtracted)
      have divides :
          amount.minorUnits + left.minorUnits = available.minorUnits := by
        omega
      dsimp only
      rw [Money.units_eq, Money.units_eq left, leftScale, same, ← Int.add_mul, divides,
        ← Money.units_eq]

/-- The ceiling is exact while the sums behind it lose no digits. -/
theorem KeepsDigits.exists_ceiling
    {targets : List Account}
    (keeps : rules.KeepsDigits targets history scale) :
    ∃ available,
      rules.ceiling targets history scale = .ok available ∧
        available.HasAllDigits ∧
        available.units = rules.exactCeiling targets history := by
  rw [KeepsDigits] at keeps
  rw [ceiling, exactCeiling]
  split at keeps
  next refunds =>
    rw [if_pos refunds, if_pos refunds]
    exact keeps.refundable_eq
  next settles =>
    rw [if_neg settles, if_neg settles]
    obtain ⟨owed, summed, -, allDigits, units⟩ := keeps.sum_eq
    exact ⟨owed, summed, allDigits, units⟩

/--
Without an overflow, what a check answers is decided by the first rule that is
broken, over all accounts, histories and amounts. What is allowed and what remains
make up a ceiling that has all its digits. It has them, and is exactly what is owed
or refundable, while the sums behind it lose none.
-/
theorem first_broken_rule_decides
    (noOverflow :
      ∀ operation,
        rules.check ids accounts history entered scale ≠
          .error (.overflow operation)) :
    (∀ outcome,
      rules.check ids accounts history entered scale = outcome ↔
        rules.Decides ids accounts history entered scale outcome) ∧
      (∀ preview available,
        rules.check ids accounts history entered scale = .ok preview →
          rules.ceiling (accounts.findEach ids) history scale = .ok available →
            available.HasAllDigits →
              preview.allowed.units + preview.remaining.units = available.units) ∧
      (rules.KeepsDigits (accounts.findEach ids) history scale →
        ∃ available,
          rules.ceiling (accounts.findEach ids) history scale = .ok available ∧
            available.HasAllDigits ∧
            available.units =
              rules.exactCeiling (accounts.findEach ids) history) := by
  have decides := decides_check noOverflow
  refine ⟨?_, ?_, KeepsDigits.exists_ceiling⟩
  · intro outcome
    constructor
    · rintro rfl
      exact decides
    · exact check_of_decides noOverflow
  · intro preview available passed measured allDigits
    rw [passed] at decides
    exact decides.adds_up measured allDigits

/-- A closed account on which something is owed takes a payment with another one. -/
theorem first_broken_rule_decides_closedOwing :
    let owing (id : AccountId) (units : Int64) : Account :=
      Account.new id "u" "Lost item" (.ofMinorUnits units 2) .epoch
    let accounts :=
      AccountBook.ofList [owing "a" 1000, { owing "b" 500 with status := .closed }]
    let ids := ["a", "b"]
    (∀ operation,
      check .settlement ids accounts [] (some "12.004") 2 ≠
        .error (.overflow operation)) ∧
      Decides .settlement ids accounts [] (some "12.004") 2
        (.ok ⟨.ofDecimal ((Decimal.make? 12004 3).getD .zero) 2,
          .ofMinorUnits 300 2⟩) := by
  intro owing accounts ids
  have passed :
      check .settlement ids accounts [] (some "12.004") 2 =
        .ok ⟨.ofDecimal ((Decimal.make? 12004 3).getD .zero) 2,
          .ofMinorUnits 300 2⟩ := by
    decide +kernel
  have noOverflow :
      ∀ operation,
        check .settlement ids accounts [] (some "12.004") 2 ≠
          .error (.overflow operation) := by
    intro operation overflow
    rw [passed] at overflow
    cases overflow
  exact ⟨noOverflow, ((first_broken_rule_decides noOverflow).1 _).mp passed⟩

end Decision

/-- An account over a whole amount that has room for no digit of its scale. -/
def owingWhole
    (id : AccountId)
    (whole : Int) : Account :=
  Account.new id "u" "Lost item"
    (.ofDecimal ((Decimal.make? whole 0).getD .zero) 2) .epoch

/--
Three small accounts together owe one whole, but each of them is lost in the sum
with a huge one. In the opposite order the sum is exact, and the payment of all that
is owed is accepted.
-/
theorem first_broken_rule_decides_lostDigits :
    let owing (id : AccountId) (units : Int64) : Account :=
      Account.new id "u" "Lost item" (.ofMinorUnits units 2) .epoch
    let accounts :=
      AccountBook.ofList
        [owingWhole "a" 79228162514264337593543950333, owing "b" 40, owing "c" 30,
          owing "d" 30]
    let ids := ["a", "b", "c", "d"]
    let all := "79228162514264337593543950334"
    let amount := (owingWhole "all" 79228162514264337593543950334).remaining
    AsksFor 2 (some all) amount ∧
      exactCeiling .settlement (accounts.findEach ids) [] = amount.units ∧
      check .settlement ids accounts [] (some all) 2 =
        Outcome.fail (.exceedsAvailable all "79228162514264337593543950333") ∧
      check .settlement ids.reverse accounts [] (some all) 2 =
        .ok ⟨amount, Money.zero 2⟩ := by
  intro owing accounts ids all amount
  have read :
      Decimal.read? (Text.trim all.toList) =
        some ((Decimal.make? 79228162514264337593543950334 0).getD .zero) := by
    decide +kernel
  refine ⟨.amount read (by decide +kernel), ?_, ?_, ?_⟩
  · decide +kernel
  · decide +kernel
  · decide +kernel

end Validation

end PatronFees
