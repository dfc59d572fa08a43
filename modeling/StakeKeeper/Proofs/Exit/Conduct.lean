import StakeKeeper.Exit.Task
import StakeKeeper.Proofs.Conduct

/-!
What the exit task may do. Main statement: `ExitTask.run_keeps` (it never calls the execution client,
and only a block time that is out of range makes it crash).
-/
namespace StakeKeeper
set_option autoImplicit false

def Request.isExecution : Request → Bool
  | executionSync => true
  | header _ => true
  | refresh _ => true
  | multicall _ _ => true
  | feeEstimate => true
  | simulate _ _ => true
  | submit _ _ _ => true
  | wait _ => true
  | _ => false

namespace ExitTask

section
-- The range of instants is never computed with below.
seal Instant.ofNanos?

variable {k : Conduct} (outside : ∀ q : Request, q.isExecution = false → k.asks q)
include outside

theorem config_keeps : config.Keeps k fun _ => True := by
  refine StatefulRoutine.keeps_get.bind fun task _ => ?_
  split
  · exact StatefulRoutine.keeps_pure trivial
  · refine (StatefulRoutine.keeps_call (outside _ rfl)).bind fun known _ => ?_
    exact StatefulRoutine.keeps_modify.bind fun _ _ => StatefulRoutine.keeps_pure trivial

theorem load_keeps : load.Keeps k fun _ => True := by
  refine StatefulRoutine.keeps_get.bind fun task _ => ?_
  split
  · exact StatefulRoutine.keeps_pure trivial
  · refine (StatefulRoutine.keeps_call (outside _ rfl)).bind fun listing _ => ?_
    refine StatefulRoutine.keeps_modify.bind fun _ _ => ?_
    exact StatefulRoutine.keeps_get.bind fun _ _ => StatefulRoutine.keeps_note

theorem signExits_keeps (epoch : UInt64) (domain : Root)
    (eligible : List (MinipoolRecord × UInt64)) :
    (signExits epoch domain eligible).Keeps k fun _ => True := by
  induction eligible with
  | nil => trivial
  | cons first rest ih =>
    refine ⟨outside _ rfl, fun answer _ => ?_⟩
    rcases answer with e | _ | key
    · exact ih
    · exact ih
    · show (signExits epoch domain rest >>= _).Keeps k _
      exact ih.bind fun _ _ => trivial

theorem reconcile_keeps (submitted : List PubKey) : (reconcile submitted).Keeps k fun _ => True := by
  refine (StatefulRoutine.keeps_ofRoutine (Routine.keeps_attempt (outside _ rfl))).bind
    fun answer _ => ?_
  split
  · exact StatefulRoutine.keeps_note.bind fun _ _ => StatefulRoutine.keeps_modify
  · refine StatefulRoutine.keeps_get.bind fun _ _ => ?_
    refine StatefulRoutine.keeps_modify.bind fun _ _ => ?_
    refine (StatefulRoutine.keeps_ofRoutine (Routine.keeps_noteAll _)).bind fun _ _ => ?_
    exact StatefulRoutine.keeps_ofRoutine (Routine.keeps_noteAll _)

theorem upload_keeps (epoch : UInt64) (exits : List ExitUpload) :
    (upload epoch exits).Keeps k fun _ => True := by
  refine (StatefulRoutine.keeps_call (outside _ rfl)).bind fun outcome _ => ?_
  split
  · exact StatefulRoutine.keeps_throw
  split
  · exact StatefulRoutine.keeps_throw
  · exact StatefulRoutine.keeps_note.bind fun _ _ => reconcile_keeps outside _

theorem exitFrom_keeps (config : BeaconConfig) {snapshot : NetworkSnapshot}
    (time : snapshot.header.time? = none → k.crashes) (candidates : List MinipoolRecord) :
    (exitFrom config snapshot candidates).Keeps k fun _ => True := by
  refine (StatefulRoutine.keeps_ofRoutine
    (Routine.keeps_orCrash time fun _ _ => trivial)).bind fun now _ => ?_
  refine (StatefulRoutine.keeps_call (outside _ rfl)).bind fun statuses _ => ?_
  refine (StatefulRoutine.keeps_ofRoutine (Routine.keeps_noteAll _)).bind fun _ _ => ?_
  split
  · exact StatefulRoutine.keeps_pure trivial
  refine (StatefulRoutine.keeps_call (outside _ rfl)).bind fun head _ => ?_
  refine (StatefulRoutine.keeps_call (outside _ rfl)).bind fun domain _ => ?_
  refine (StatefulRoutine.keeps_ofRoutine (signExits_keeps outside _ _ _)).bind fun exits _ => ?_
  split
  · exact StatefulRoutine.keeps_pure trivial
  · exact upload_keeps outside _ _

theorem run_keeps {snapshot : NetworkSnapshot}
    (time : snapshot.header.time? = none → k.crashes) :
    (run snapshot).Keeps k fun _ => True := by
  refine (config_keeps outside).bind fun config _ => ?_
  refine (load_keeps outside).bind fun _ _ => ?_
  refine StatefulRoutine.keeps_get.bind fun task _ => ?_
  split
  · exact StatefulRoutine.keeps_note
  · exact exitFrom_keeps outside config time _

end

end ExitTask

end StakeKeeper
