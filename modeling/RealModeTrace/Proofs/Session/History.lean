import RealModeTrace.Session.Run
import Mathlib.Data.List.Induction

/-!
# Histories of a session

A history lists the calls of a session, oldest first, each with the readings of the clock that it
takes.

* `loads`, `exits`: how many programs are loaded in a history, and how many exit;
* `Session.after`, `Session.worldAfter`, `Session.trace`: the session, the world and the records
  after a history; `after_append`, `trace_append` cut a history in two;
* `Session.answer`: the records that one call makes, which do not depend on the world;
* `Setup.after`, `Setup.trace`: the session after a history that begins with its start, and the
  records of both;
* `Setup.after_induction`: what the start has and every call keeps holds after every history.
-/

namespace RealModeTrace

/-- The calls of a session, oldest first, with the readings of the clock that they take. -/
abbrev History := List (Readings × Session.Call)

/-- A machine that is all zeros. -/
def Host.blank : Host := ⟨{}, fun _ => 0, false⟩

/-! ### Kinds of calls -/

namespace Session.Call

/-- A program is loaded. -/
def isLoad : Call → Bool
  | .event _ (.programExec _ _) => true
  | _ => false

/-- A program exits and does not stay resident. -/
def isExit : Call → Bool
  | .event _ (.programTerminated _) => true
  | _ => false

/-- An event, and neither new options nor the end of the session. -/
def isEvent : Call → Bool
  | .event _ _ => true
  | _ => false

/-- The end of the session. -/
def isShutdown : Call → Bool
  | .shutdown => true
  | _ => false

/-- The options that the call puts in force, as they were given. -/
def newConfig? : Call → Option Config
  | .update c => some c
  | _ => none

theorem exists_of_isLoad {call : Call} (h : call.isLoad = true) :
    ∃ host filename cmdline, call = .event host (.programExec filename cmdline) := by
  cases call with
  | event host event =>
    cases event with
    | programExec filename cmdline => exact ⟨host, filename, cmdline, rfl⟩
    | _ => exact Bool.noConfusion h
  | _ => exact Bool.noConfusion h

theorem exists_of_isExit {call : Call} (h : call.isExit = true) :
    ∃ host exitCode, call = .event host (.programTerminated exitCode) := by
  cases call with
  | event host event =>
    cases event with
    | programTerminated exitCode => exact ⟨host, exitCode, rfl⟩
    | _ => exact Bool.noConfusion h
  | _ => exact Bool.noConfusion h

theorem exists_of_isEvent {call : Call} (h : call.isEvent = true) :
    ∃ host event, call = .event host event := by
  cases call with
  | event host event => exact ⟨host, event, rfl⟩
  | _ => exact Bool.noConfusion h

theorem isLoad_eq_false_of_isExit {call : Call} (hx : call.isExit = true) :
    call.isLoad = false := by
  obtain ⟨host, exitCode, rfl⟩ := exists_of_isExit hx
  rfl

end Session.Call

/-! ### Counting loads and exits -/

/-- The number of program loads. -/
def loads (h : History) : Nat := h.countP (·.2.isLoad)

/-- The number of program exits. -/
def exits (h : History) : Nat := h.countP (·.2.isExit)

@[simp] theorem loads_nil : loads [] = 0 := rfl

@[simp] theorem exits_nil : exits [] = 0 := rfl

@[simp] theorem loads_append (h k : History) : loads (h ++ k) = loads h + loads k :=
  List.countP_append ..

@[simp] theorem exits_append (h k : History) : exits (h ++ k) = exits h + exits k :=
  List.countP_append ..

@[simp] theorem loads_singleton (entry : Readings × Session.Call) :
    loads [entry] = if entry.2.isLoad then 1 else 0 :=
  List.countP_singleton ..

@[simp] theorem exits_singleton (entry : Readings × Session.Call) :
    exits [entry] = if entry.2.isExit then 1 else 0 :=
  List.countP_singleton ..

theorem counts_of_isExit (h : History) {entry : Readings × Session.Call}
    (hx : entry.2.isExit = true) :
    loads (h ++ [entry]) = loads h ∧ exits (h ++ [entry]) = exits h + 1 := by
  rw [loads_append, exits_append, loads_singleton, exits_singleton,
    Session.Call.isLoad_eq_false_of_isExit hx, hx]
  exact ⟨rfl, rfl⟩

theorem counts_of_isLoad (h : History) {entry : Readings × Session.Call}
    (hl : entry.2.isLoad = true) :
    loads (h ++ [entry]) = loads h + 1 ∧ exits (h ++ [entry]) = exits h := by
  have hx : entry.2.isExit = false := Bool.eq_false_iff.2 fun hx =>
    Bool.noConfusion (hl.symm.trans (Session.Call.isLoad_eq_false_of_isExit hx))
  rw [loads_append, exits_append, loads_singleton, exits_singleton, hl, hx]
  exact ⟨rfl, rfl⟩

theorem counts_of_other (h : History) {entry : Readings × Session.Call}
    (hl : entry.2.isLoad = false) (hx : entry.2.isExit = false) :
    loads (h ++ [entry]) = loads h ∧ exits (h ++ [entry]) = exits h := by
  rw [loads_append, exits_append, loads_singleton, exits_singleton, hl, hx]
  exact ⟨rfl, rfl⟩

namespace Session

/-! ### The state after a history -/

/-- The session after a history. -/
def after (s : Session) (world : World) (h : History) : Session :=
  (s.run world h).1

/-- The world after a history. -/
def worldAfter (s : Session) (world : World) (h : History) : World :=
  (s.run world h).2.1

/-- The records that a history makes. -/
def trace (s : Session) (world : World) (h : History) : List Record :=
  (s.run world h).2.2

@[simp] theorem after_nil (s : Session) (world : World) : s.after world [] = s := rfl

@[simp] theorem trace_nil (s : Session) (world : World) : s.trace world [] = [] := rfl

theorem after_cons (s : Session) (world : World) (entry : Readings × Call) (h : History) :
    s.after world (entry :: h) =
      (s.step world entry.1 entry.2).1.after (s.step world entry.1 entry.2).2.1 h := rfl

theorem worldAfter_cons (s : Session) (world : World) (entry : Readings × Call) (h : History) :
    s.worldAfter world (entry :: h) =
      (s.step world entry.1 entry.2).1.worldAfter (s.step world entry.1 entry.2).2.1 h := rfl

theorem trace_cons (s : Session) (world : World) (entry : Readings × Call) (h : History) :
    s.trace world (entry :: h) = (s.step world entry.1 entry.2).2.2 ++
      (s.step world entry.1 entry.2).1.trace (s.step world entry.1 entry.2).2.1 h := rfl

theorem after_append (s : Session) (world : World) (h k : History) :
    s.after world (h ++ k) = (s.after world h).after (s.worldAfter world h) k := by
  induction h generalizing s world with
  | nil => rfl
  | cons entry h ih => rw [List.cons_append, after_cons, ih, after_cons, worldAfter_cons]

theorem worldAfter_append (s : Session) (world : World) (h k : History) :
    s.worldAfter world (h ++ k) =
      (s.after world h).worldAfter (s.worldAfter world h) k := by
  induction h generalizing s world with
  | nil => rfl
  | cons entry h ih => rw [List.cons_append, worldAfter_cons, ih, after_cons, worldAfter_cons]

theorem trace_append (s : Session) (world : World) (h k : History) :
    s.trace world (h ++ k) =
      s.trace world h ++ (s.after world h).trace (s.worldAfter world h) k := by
  induction h generalizing s world with
  | nil => rfl
  | cons entry h ih =>
    rw [List.cons_append, trace_cons, ih, trace_cons, after_cons, worldAfter_cons,
      List.append_assoc]

theorem after_concat (s : Session) (world : World) (h : History) (entry : Readings × Call) :
    s.after world (h ++ [entry]) =
      ((s.after world h).step (s.worldAfter world h) entry.1 entry.2).1 :=
  after_append s world h [entry]

/-! ### The records of one call -/

/-- What an event does. An event that stages the machine does nothing. -/
def observe (s : Session) (clock : Readings) (host : Host) (event : Event) :
    Session × List Record :=
  (s.dispatch clock host event).getD (s, [])

/-- The records that a call makes. -/
def answer (s : Session) (entry : Readings × Call) : List Record :=
  match entry.2 with
  | .event host event => (s.observe entry.1 host event).2
  | .update _ => []
  | .shutdown => s.closingRecords

theorem emit_nil (s : Session) (world : World) : s.emit world [] = (s, world) := by
  obtain ⟨config, ready, activation, writer, sampler, files, fallback, finalLines⟩ := s
  cases writer <;> rfl

theorem step_event (s : Session) (world : World) (clock : Readings) (host : Host) (event : Event) :
    s.step world clock (.event host event) =
      (((s.observe clock host event).1.emit world (s.observe clock host event).2).1,
        ((s.observe clock host event).1.emit world (s.observe clock host event).2).2,
        (s.observe clock host event).2) := by
  rcases h : s.dispatch clock host event with _ | ⟨s', records⟩
  · simp only [step, observe, h, Option.getD_none, emit_nil]
  · simp only [step, observe, h, Option.getD_some]

theorem step_records (s : Session) (world : World) (clock : Readings) (call : Call) :
    (s.step world clock call).2.2 = s.answer (clock, call) := by
  cases call with
  | event host event => rw [step_event]; rfl
  | update c => rfl
  | shutdown =>
    show (s.finish world).records = s.closingRecords
    simp only [finish]
    split <;> rfl

theorem trace_singleton (s : Session) (world : World) (entry : Readings × Call) :
    s.trace world [entry] = s.answer entry := by
  rw [trace_cons, step_records, trace_nil, List.append_nil]

theorem trace_concat (s : Session) (world : World) (h : History) (entry : Readings × Call) :
    s.trace world (h ++ [entry]) = s.trace world h ++ (s.after world h).answer entry := by
  rw [trace_append, trace_singleton]

end Session

namespace Setup

/-! ### Histories that begin with the start -/

/-- The session that is started and then called. -/
def after (setup : Setup) (now : Duration) (world : World) (h : History) : Session :=
  (setup.start now world).1.after (setup.start now world).2.1 h

/-- The world after a session was started and called. -/
def worldAfter (setup : Setup) (now : Duration) (world : World) (h : History) : World :=
  (setup.start now world).1.worldAfter (setup.start now world).2.1 h

/-- The records of the start and of the calls after it. -/
def trace (setup : Setup) (now : Duration) (world : World) (h : History) : List Record :=
  (setup.start now world).2.2 ++
    (setup.start now world).1.trace (setup.start now world).2.1 h

variable (setup : Setup) (now : Duration) (world : World)

@[simp] theorem after_nil : setup.after now world [] = (setup.start now world).1 := rfl

theorem after_append (h k : History) : setup.after now world (h ++ k) =
    (setup.after now world h).after (setup.worldAfter now world h) k :=
  Session.after_append ..

theorem worldAfter_append (h k : History) : setup.worldAfter now world (h ++ k) =
    (setup.after now world h).worldAfter (setup.worldAfter now world h) k :=
  Session.worldAfter_append ..

theorem trace_append (h k : History) : setup.trace now world (h ++ k) =
    setup.trace now world h ++
      (setup.after now world h).trace (setup.worldAfter now world h) k := by
  unfold trace
  rw [Session.trace_append, List.append_assoc]
  rfl

theorem after_concat (h : History) (entry : Readings × Session.Call) :
    setup.after now world (h ++ [entry]) =
      ((setup.after now world h).step (setup.worldAfter now world h) entry.1 entry.2).1 :=
  Session.after_concat ..

theorem worldAfter_concat (h : History) (entry : Readings × Session.Call) :
    setup.worldAfter now world (h ++ [entry]) =
      ((setup.after now world h).step (setup.worldAfter now world h) entry.1 entry.2).2.1 :=
  Session.worldAfter_append _ _ h [entry]

@[simp] theorem trace_nil : setup.trace now world [] = (setup.start now world).2.2 :=
  List.append_nil _

theorem trace_concat (h : History) (entry : Readings × Session.Call) :
    setup.trace now world (h ++ [entry]) =
      setup.trace now world h ++ (setup.after now world h).answer entry := by
  unfold trace
  rw [Session.trace_concat, List.append_assoc]
  rfl

/-- The records of a further history. -/
def traceSince (before h : History) : List Record :=
  (setup.after now world before).trace (setup.worldAfter now world before) h

theorem traceSince_concat (before h : History) (entry : Readings × Session.Call) :
    setup.traceSince now world before (h ++ [entry]) =
      setup.traceSince now world before h ++
        (setup.after now world (before ++ h)).answer entry := by
  unfold traceSince after worldAfter
  rw [Session.trace_concat, Session.after_append]

/-- What the start has and every call keeps holds after every history. -/
theorem after_induction {motive : History → Session → Prop}
    (start : motive [] (setup.start now world).1)
    (step : ∀ h s world' entry, motive h s →
      motive (h ++ [entry]) (s.step world' entry.1 entry.2).1) (h : History) :
    motive h (setup.after now world h) := by
  induction h using List.reverseRecOn with
  | nil => exact start
  | append_singleton h entry ih =>
    rw [after_concat]
    exact step h _ _ entry ih

end Setup

end RealModeTrace
