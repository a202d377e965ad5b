import PatronFees.Proofs.Batch.Answers
import PatronFees.Proofs.Engine.Procedure
import Mathlib.Data.List.Forall2
import Mathlib.Data.List.Lattice

namespace PatronFees

/-!
# Taking turns

Procedures that run side by side take turns, each time one request of one of
them, in any order. Where they are about different accounts, each is answered as
if it had the office to itself: it goes on to ensure its goal whatever the others
do, and accounts that none is about stay as they are.
-/

namespace Procedure

variable {State Result : Type}
  {answer : (request : Request) → State → request.Reply × State}

/-- The procedure at an index makes its next request, if it has one. -/
def takeTurn
    (answer : (request : Request) → State → request.Reply × State)
    (turns : List (Procedure Result) × State)
    (index : Nat) :
    List (Procedure Result) × State :=
  match turns.1[index]? with
  | some (.ask request next) =>
      let (reply, after) := answer request turns.2
      (turns.1.set index (next reply), after)
  | some (.done _) | none => turns

/-- Procedures take turns in the order of a schedule. -/
def takeTurns
    (answer : (request : Request) → State → request.Reply × State)
    (schedule : List Nat)
    (turns : List (Procedure Result) × State) :
    List (Procedure Result) × State :=
  schedule.foldl (takeTurn answer) turns

theorem takeTurns_append
    (earlier later : List Nat)
    (turns : List (Procedure Result) × State) :
    takeTurns answer (earlier ++ later) turns =
      takeTurns answer later (takeTurns answer earlier turns) :=
  List.foldl_append

/-- A procedure that has the next turns to itself is run to its end. -/
theorem exists_takeTurns_run
    (answer : (request : Request) → State → request.Reply × State)
    (before after : List (Procedure Result))
    (procedure : Procedure Result)
    (state : State) :
    ∃ schedule,
      takeTurns answer schedule (before ++ procedure :: after, state) =
        (before ++ .done (procedure.run answer state).1 :: after,
          (procedure.run answer state).2) := by
  induction procedure generalizing state with
  | done result =>
      exact ⟨[], rfl⟩
  | ask request next inductionHypothesis =>
      obtain ⟨schedule, ended⟩ :=
        inductionHypothesis (answer request state).1 (answer request state).2
      refine ⟨before.length :: schedule, ?_⟩
      have first :
          takeTurn answer (before ++ .ask request next :: after, state)
              before.length =
            (before ++ next (answer request state).1 :: after,
              (answer request state).2) := by
        simp [takeTurn]
      rw [takeTurns, List.foldl_cons, first]
      exact ended

end Procedure

/-- What a procedure has to do: the accounts that it is about, and its goal. -/
structure Duty (Result : Type) where
  accounts : List AccountId
  goal : Result → Desk → Prop

/-- A procedure at its desk. -/
structure Worker (Result : Type) where
  duty : Duty Result
  desk : Desk
  procedure : Procedure Result

namespace Worker

variable {Result : Type}

/-- The desk has the books of the office, and the goal will be reached. -/
structure IsOnCourse
    (office : Office)
    (worker : Worker Result) : Prop where
  same : Books.SameOn worker.duty.accounts office.books worker.desk.books
  ensures :
    worker.procedure.Ensures worker.duty.accounts worker.duty.goal worker.desk

/-- The worker once a request was answered. -/
def answered
    (worker : Worker Result)
    (request : Request)
    (next : request.Reply → Procedure Result)
    (reply : request.Reply) : Worker Result :=
  { worker with
    desk := worker.desk.answered request reply
    procedure := next reply }

end Worker

/-- An office has an account and its history as another one has them. -/
structure Office.SameAt
    (id : AccountId)
    (office after : Office) : Prop where
  account_eq : after.accounts.find? id = office.accounts.find? id
  history_eq : after.ledger.historyOf id = office.ledger.historyOf id

namespace Office.SameAt

variable {id : AccountId} {office between after : Office}

theorem refl
    (id : AccountId)
    (office : Office) :
    office.SameAt id office :=
  ⟨rfl, rfl⟩

theorem trans
    (same : office.SameAt id between)
    (onward : between.SameAt id after) :
    office.SameAt id after :=
  ⟨onward.account_eq.trans same.account_eq,
    onward.history_eq.trans same.history_eq⟩

end Office.SameAt

/-- Workers on course, about different accounts, with identifiers for all. -/
structure Office.Hosts
    {Result : Type}
    (office : Office)
    (workers : List (Worker Result)) : Prop where
  recorded : office.ledger.IsRecorded
  onCourse : ∀ worker ∈ workers, worker.IsOnCourse office
  elsewhere :
    workers.Pairwise fun first second =>
      first.duty.accounts.Disjoint second.duty.accounts
  apart :
    office.KeepsApart (workers.flatMap (·.desk.drawn))
      (workers.map (·.desk.budget)).sum

namespace Office.Hosts

variable {Result : Type} {office : Office} {worker : Worker Result}
  {workers others : List (Worker Result)}

/-- The order of the workers does not matter. -/
theorem perm
    (hosts : office.Hosts workers)
    (permuted : workers.Perm others) :
    office.Hosts others where
  recorded := hosts.recorded
  onCourse := fun worker member =>
    hosts.onCourse worker (permuted.mem_iff.mpr member)
  elsewhere :=
    hosts.elsewhere.perm permuted List.Disjoint.symm
  apart := by
    rw [← (permuted.map _).sum_eq]
    exact hosts.apart.perm (permuted.flatMap_right _)

/-- A worker whose request is answered stays on course, and so do the others. -/
theorem answer
    {request : Request}
    {next : request.Reply → Procedure Result}
    (hosts : office.Hosts (worker :: others))
    (asks : worker.procedure = .ask request next) :
    (office.answer request).2.Hosts
        (worker.answered request next (office.answer request).1 :: others) ∧
      ∀ id ∉ worker.duty.accounts, office.SameAt id (office.answer request).2 := by
  have onCourse := hosts.onCourse worker List.mem_cons_self
  have ensures := onCourse.ensures
  rw [asks] at ensures
  obtain ⟨permitted, onward⟩ := ensures
  obtain ⟨apartFromAll, restApart⟩ := List.pairwise_cons.mp hosts.elsewhere
  have answers :=
    office.answer_permitted hosts.recorded onCourse.same permitted hosts.apart
  have unchanged :
      ∀ ids,
        ids.Disjoint worker.duty.accounts →
          Books.SameOn ids office.books (office.answer request).2.books := by
    intro ids disjoint
    rw [answers.books]
    exact Request.sameOn_change
      (List.disjoint_of_subset_right permitted.named disjoint)
  refine ⟨⟨answers.recorded, ?_, List.pairwise_cons.mpr ⟨apartFromAll, restApart⟩,
    answers.apart⟩, ?_⟩
  · intro other member
    rcases List.mem_cons.mp member with rfl | among
    · refine ⟨?_, onward _ answers.expected⟩
      change Books.SameOn worker.duty.accounts (office.answer request).2.books
        (worker.desk.answered request (office.answer request).1).books
      rw [answers.books, Desk.books_answered]
      exact Request.change_sameOn onCourse.same
    · have otherOnCourse := hosts.onCourse other (List.mem_cons_of_mem _ among)
      have disjoint := List.Disjoint.symm (apartFromAll other among)
      exact ⟨(unchanged _ disjoint).symm.trans otherOnCourse.same,
        otherOnCourse.ensures⟩
  · intro id outside
    have same :=
      unchanged [id] (List.singleton_disjoint.mpr outside)
    refine ⟨(same.account_eq id (List.mem_singleton_self id)).symm, ?_⟩
    have none :
        request.recorded.filter (·.account == id) = [] := by
      apply List.filter_eq_nil_iff.mpr
      intro entry member isOn
      have named := permitted.named (Request.account_mem_of_mem_recorded member)
      rw [beq_iff_eq.mp isOn] at named
      exact outside named
    rw [answers.ledger, Ledger.historyOf_foldl_append, none, List.append_nil]

end Office.Hosts

/-- Workers of the same duties, in the same order, further on in an office. -/
structure Worker.AreFurtherOn
    {Result : Type}
    (office : Office)
    (workers : List (Worker Result))
    (turns : List (Procedure Result) × Office)
    (later : List (Worker Result)) : Prop where
  procedures : turns.1 = later.map (·.procedure)
  duties : later.map (·.duty) = workers.map (·.duty)
  hosts : turns.2.Hosts later
  /-- Accounts that no worker is about stay as they are. -/
  unchanged :
    ∀ id,
      (∀ worker ∈ workers, id ∉ worker.duty.accounts) →
        office.SameAt id turns.2

namespace Office.Hosts

variable {Result : Type} {office : Office} {workers : List (Worker Result)}

/-- A turn brings the workers further on. -/
theorem takeTurn
    (hosts : office.Hosts workers)
    (index : Nat) :
    ∃ later,
      Worker.AreFurtherOn office workers
        (Procedure.takeTurn Office.answer
          (workers.map (·.procedure), office) index) later := by
  rw [Procedure.takeTurn]
  split
  next request next found =>
    obtain ⟨worker, isWorker, asks⟩ :
        ∃ worker, workers[index]? = some worker ∧
          worker.procedure = .ask request next := by
      simpa using found
    obtain ⟨inside, rfl⟩ := List.getElem?_eq_some_iff.mp isWorker
    have chosen := List.getElem_cons_eraseIdx_perm inside
    obtain ⟨answered, unchanged⟩ := (hosts.perm chosen.symm).answer asks
    refine ⟨workers.set index
        (workers[index].answered request next (office.answer request).1),
      ?_, ?_, ?_, ?_⟩
    · rw [List.map_set]
      rfl
    · have kept :
          (workers[index].answered request next (office.answer request).1).duty =
            workers[index].duty :=
        rfl
      rw [List.map_set, kept, ← List.getElem_map Worker.duty]
      · exact List.set_getElem_self _
      · rwa [List.length_map]
    · exact answered.perm (List.set_perm_cons_eraseIdx inside _).symm
    · exact fun id outside => unchanged id (outside _ (List.getElem_mem inside))
  next =>
    exact ⟨workers, rfl, rfl, hosts, fun id _ => .refl id office⟩
  next =>
    exact ⟨workers, rfl, rfl, hosts, fun id _ => .refl id office⟩

/-- Turns in any order bring the workers further on. -/
theorem takeTurns
    (hosts : office.Hosts workers)
    (schedule : List Nat) :
    ∃ later,
      Worker.AreFurtherOn office workers
        (Procedure.takeTurns Office.answer schedule
          (workers.map (·.procedure), office)) later := by
  induction schedule generalizing office workers with
  | nil =>
      exact ⟨workers, rfl, rfl, hosts, fun id _ => .refl id office⟩
  | cons index rest inductionHypothesis =>
      obtain ⟨between, first⟩ := hosts.takeTurn index
      obtain ⟨later, onward⟩ := inductionHypothesis first.hosts
      rw [← first.procedures] at onward
      refine ⟨later, onward.procedures, onward.duties.trans first.duties,
        onward.hosts, fun id outside => ?_⟩
      refine (first.unchanged id outside).trans (onward.unchanged id ?_)
      intro worker member
      have duty : worker.duty ∈ workers.map (·.duty) := by
        rw [← first.duties]
        exact List.mem_map_of_mem member
      obtain ⟨before, among, same⟩ := List.mem_map.mp duty
      rw [← same]
      exact outside before among

end Office.Hosts

/-- The goal was reached at a desk that has the books of the office. -/
def Duty.IsDone
    {Result : Type}
    (office : Office)
    (duty : Duty Result)
    (result : Result) : Prop :=
  ∃ desk, duty.goal result desk ∧ Books.SameOn duty.accounts office.books desk.books

/-- Where all procedures are at their ends, all duties are done. -/
theorem Worker.AreFurtherOn.isDone
    {Result : Type}
    {office : Office}
    {workers later : List (Worker Result)}
    {turns : List (Procedure Result) × Office}
    {results : List Result}
    (furtherOn : AreFurtherOn office workers turns later)
    (ended : turns.1 = results.map .done) :
    List.Forall₂ (Duty.IsDone turns.2) (workers.map (·.duty)) results := by
  have atEnds :
      List.Forall₂ (fun worker result => worker.procedure = .done result)
        later results := by
    have same : later.map (·.procedure) = results.map .done :=
      furtherOn.procedures.symm.trans ended
    rw [← List.forall₂_eq_eq_eq] at same
    rwa [List.forall₂_map_left_iff, List.forall₂_map_right_iff] at same
  rw [← furtherOn.duties, List.forall₂_map_left_iff]
  have both := (List.forall₂_and_left _ _).mpr ⟨furtherOn.hosts.onCourse, atEnds⟩
  refine both.imp fun worker result ⟨onCourse, isEnd⟩ => ?_
  have ensures := onCourse.ensures
  rw [isEnd] at ensures
  exact ⟨worker.desk, ensures, onCourse.same⟩

end PatronFees
