import PatronFees.Proofs.Batch.Counted
import PatronFees.Proofs.Batch.Onward
import PatronFees.Proofs.Money.Exact

namespace PatronFees

/-!
# Refunds that are measured alike

Sums over histories are exact while they are in range, and then they are the same
in any order. So while the accounts that were loaded owe no more than there is room
for, every refund is measured by what its accounts have received, however their
histories are interleaved.
-/

namespace Refund

variable {scale : Nat} {history other : List Posting}

/-- The sum over some kinds is the same in any order while it is in range. -/
theorem sumOf_perm
    {kinds : List ActionKind}
    (capped : scale ≤ Money.maxScale)
    (sound : IsSound scale history)
    (inRange : unitsPosted kinds history < twoTo 96)
    (same : history.Perm other) :
    sumOf history kinds scale = sumOf other kinds scale := by
  rw [← unitsOf_amounts] at inRange
  exact Money.sum_perm capped
    (sound.of_subset (List.filter_sublist.map _).subset) inRange
    ((same.filter _).map _)

/-- What is refundable is the same in any order while it is in range. -/
theorem refundable_perm
    (capped : scale ≤ Money.maxScale)
    (sound : IsSound scale history)
    (receivedIn : unitsReceived history < twoTo 96)
    (refundedIn : unitsRefunded history < twoTo 96)
    (same : history.Perm other) :
    refundable history scale = refundable other scale := by
  rw [refundable, sumOf_perm capped sound receivedIn same,
    sumOf_perm capped sound refundedIn same]
  rfl

end Refund

namespace Engine

variable {engine : Engine} {books others : Books} {request : ActionRequest}

/-- Books that are the same account by account measure a refund alike. -/
theorem MeasuresAlike.of_sameEach
    (alike : engine.MeasuresAlike books request)
    (same : books.SameEach others) :
    engine.MeasuresAlike others request := by
  intro refunds history isSame
  have between :=
    same.sameHistories_find request.accounts.eraseDups refundHistory
  rw [alike refunds history fun id => (isSame id).trans (between id).symm,
    alike refunds _ fun id => (between id).symm]

/-- Books that are the same account by account measure all refunds alike. -/
theorem MeasuresAllAlike.of_sameEach
    {requests : List ActionRequest}
    (alike : engine.MeasuresAllAlike books requests)
    (same : books.SameEach others) :
    engine.MeasuresAllAlike others requests := by
  induction requests generalizing books others with
  | nil =>
      trivial
  | cons request rest inductionHypothesis =>
      have there := alike.1.of_sameEach same
      refine ⟨there, fun told after tells => ?_⟩
      obtain ⟨before, toldBefore, sameAfter⟩ :=
        tell_of_sameEach same.symm there tells
      exact inductionHypothesis (alike.2 told before toldBefore) sameAfter.symm

/-- Requests without refunds measure nothing. -/
theorem measuresAllAlike_of_noRefund
    {requests : List ActionRequest}
    (noRefund : ∀ request ∈ requests, request.kind ≠ .refund) :
    engine.MeasuresAllAlike books requests := by
  induction requests generalizing books with
  | nil =>
      trivial
  | cons request rest inductionHypothesis =>
      obtain ⟨here, others⟩ := List.forall_mem_cons.mp noRefund
      exact ⟨fun refunds => absurd refunds here,
        fun _ _ _ => inductionHypothesis others⟩

/-- In an office that is in range, any refund is measured alike. -/
theorem measuresAlike_of_inRange
    {office : Office}
    {entries : List LedgerEntry}
    (recorded : office.ledger = Ledger.ofEntries entries)
    (posted : ArePostedInRange engine.scale entries)
    (request : ActionRequest) :
    engine.MeasuresAlike office.books request := by
  intro _ history same
  have double : twoTo 96 = 2 * twoTo 95 := twoTo_succ 95
  have isRecorded : office.ledger.IsRecorded := by
    rw [recorded]
    exact Ledger.isRecorded_ofEntries entries
  have found :
      office.books.find request.accounts.eraseDups refundHistory =
        (postingsOnAny entries request.accounts.eraseDups).filter
          countsForRefunds :=
    (Office.map_posting_find isRecorded _ _).symm.trans
      (map_posting_find recorded _)
  obtain ⟨sound, received, refunded⟩ :=
    inRange_postingsOnAny posted (nodup_eraseDups request.accounts)
  rw [← found] at sound received refunded
  have received_nonneg := sound.unitsReceived_nonneg
  have refunded_nonneg := sound.unitsRefunded_nonneg
  exact (Refund.refundable_perm engine.scale_le sound (by omega) (by omega)
    same.perm.symm).symm

end Engine

/-- From reachable stores all refunds are measured alike. -/
theorem Office.IsReachable.measuresAllAlike
    {engine : Engine}
    {loaded : AccountBook}
    {office : Office}
    {requests : List ActionRequest}
    (reachable : office.IsReachable engine.scale loaded)
    (inRange : loaded.IsInRange engine.scale)
    (fresh :
      office.DrawsFresh (4 * (requests.flatMap (·.accounts)).length)) :
    engine.MeasuresAllAlike office.books requests := by
  induction requests generalizing office with
  | nil =>
      trivial
  | cons request rest inductionHypothesis =>
      obtain ⟨results, after, ran, -, onward⟩ :=
        Batch.exists_processLane reachable inRange [request]
      obtain ⟨entries, reached⟩ := reachable
      have recorded : office.ledger.IsRecorded := by
        rw [reached.recorded]
        exact Ledger.isRecorded_ofEntries entries
      have freshOnward :
          office.DrawsFresh
            (4 * ([request].flatMap (·.accounts)).length +
              4 * (rest.flatMap (·.accounts)).length) := by
        rw [List.flatMap_cons, List.length_append, Nat.mul_add] at fresh
        simpa using fresh
      obtain ⟨last, tells, leads⟩ :=
        Batch.leadsOn_run recorded freshOnward (congrArg Prod.fst ran)
      rw [ran] at leads
      refine ⟨Engine.measuresAlike_of_inRange reached.recorded
        (reached.inRange inRange).2 request, fun told between first => ?_⟩
      have isLast : last = between := by
        rw [Engine.tellAll, first, Outcome.ok_bind] at tells
        exact (Prod.mk.inj (Except.ok.inj tells)).2.symm
      rw [← isLast]
      exact (inductionHypothesis onward leads.fresh).of_sameEach leads.books

end PatronFees
