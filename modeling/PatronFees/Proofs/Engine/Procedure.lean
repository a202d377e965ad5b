import PatronFees.Engine.Office

namespace PatronFees

/-!
# Running procedures

A procedure bound to another runs first and hands its result and the state on.
An attempt that halts ends the attempts bound to it, and a store whose replies
are in gives the attempt its result.
-/

namespace Procedure

variable {State First Second Third : Type}

theorem bind_assoc
    (procedure : Procedure First)
    (next : First → Procedure Second)
    (last : Second → Procedure Third) :
    (procedure.bind next).bind last =
      procedure.bind fun result => (next result).bind last := by
  induction procedure with
  | done result =>
      rfl
  | ask request reply inductionHypothesis =>
      simp only [bind, inductionHypothesis]

/-- A procedure that returns its result is the procedure. -/
theorem bind_done (procedure : Procedure First) :
    procedure.bind .done = procedure := by
  induction procedure with
  | done result =>
      rfl
  | ask request reply inductionHypothesis =>
      simp only [bind, inductionHypothesis]

instance : LawfulMonad Procedure :=
  .mk' _ bind_done (fun _ _ => rfl) bind_assoc

/-- The state that one procedure leaves is the one that the next starts from. -/
theorem run_bind
    (answer : (request : Request) → State → request.Reply × State)
    (procedure : Procedure First)
    (next : First → Procedure Second)
    (state : State) :
    (procedure.bind next).run answer state =
      (next (procedure.run answer state).1).run answer
        (procedure.run answer state).2 := by
  induction procedure generalizing state with
  | done result =>
      rfl
  | ask request reply inductionHypothesis =>
      exact inductionHypothesis _ _

end Procedure

namespace Attempt

variable {State First Second : Type}
  {answer : (request : Request) → State → request.Reply × State}
  {state after : State}

/-- What an attempt ends with when requests are answered so, and the state then. -/
def runWith
    {Result : Type}
    (answer : (request : Request) → State → request.Reply × State)
    (attempt : Attempt Result)
    (state : State) :
    Outcome Result × State :=
  Procedure.run answer (ExceptT.run attempt) state

/-- An attempt bound to another goes on from what the other ended with. -/
theorem runWith_bind
    (answer : (request : Request) → State → request.Reply × State)
    (attempt : Attempt First)
    (next : First → Attempt Second)
    (state : State) :
    (attempt >>= next).runWith answer state =
      (ExceptT.bindCont next (attempt.runWith answer state).1).run answer
        (attempt.runWith answer state).2 :=
  Procedure.run_bind answer _ _ state

/-- An attempt that has a result hands it and the state on. -/
theorem runWith_bind_ok
    {attempt : Attempt First}
    {next : First → Attempt Second}
    {result : First}
    (ended : attempt.runWith answer state = (.ok result, after)) :
    (attempt >>= next).runWith answer state =
      (next result).runWith answer after := by
  rw [runWith_bind, ended]
  rfl

/-- An attempt that halts ends the whole. -/
theorem runWith_bind_error
    {attempt : Attempt First}
    {next : First → Attempt Second}
    {halt : Halt}
    (ended : attempt.runWith answer state = (.error halt, after)) :
    (attempt >>= next).runWith answer state = (.error halt, after) := by
  rw [runWith_bind, ended]
  rfl

/-- What is made of the result of an outcome changes nothing. -/
theorem runWith_ofOutcome_map
    (answer : (request : Request) → State → request.Reply × State)
    (outcome : Outcome First)
    (next : First → Second)
    (state : State) :
    (Attempt.ofOutcome outcome >>= fun result => pure (next result)).runWith
        answer state =
      (outcome >>= fun result => pure (next result), state) := by
  cases outcome <;> rfl

end Attempt

namespace Office

variable {First Second : Type} {office after : Office}

/-- What an attempt ends with when every service works, and the office then. -/
def run
    {Result : Type}
    (office : Office)
    (attempt : Attempt Result) :
    Outcome Result × Office :=
  Procedure.run answer (ExceptT.run attempt) office

/-- An attempt that has a result hands it and the office on. -/
theorem run_bind_ok
    {attempt : Attempt First}
    {next : First → Attempt Second}
    {result : First}
    (ended : office.run attempt = (.ok result, after)) :
    office.run (attempt >>= next) = after.run (next result) :=
  Attempt.runWith_bind_ok ended

/-- An attempt that halts ends the whole. -/
theorem run_bind_error
    {attempt : Attempt First}
    {next : First → Attempt Second}
    {halt : Halt}
    (ended : office.run attempt = (.error halt, after)) :
    office.run (attempt >>= next) = (.error halt, after) :=
  Attempt.runWith_bind_error ended

@[simp] theorem run_pure
    (office : Office)
    (result : First) :
    office.run (pure result : Attempt First) = (.ok result, office) :=
  rfl

/-- What is made of the result of an outcome changes nothing. -/
theorem run_ofOutcome_map
    (office : Office)
    (outcome : Outcome First)
    (next : First → Second) :
    office.run (Attempt.ofOutcome outcome >>= fun result => pure (next result)) =
      (outcome >>= fun result => pure (next result), office) :=
  Attempt.runWith_ofOutcome_map answer outcome next office

/-- A request is answered by the office. -/
theorem run_ask_bind
    (office : Office)
    (request : Request)
    (next : request.Reply → Attempt Second) :
    office.run (Attempt.ask request >>= next) =
      (office.answer request).2.run (next (office.answer request).1) :=
  rfl

end Office

end PatronFees
