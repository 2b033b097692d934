import RealModeTrace.Proofs.Config.Exclusion
import RealModeTrace.Proofs.Session.Output
import RealModeTrace.Proofs.Trace.Width

/-!
# Interrupts and the exclusion list

The exclusion list of the options is checked when they are validated, and consulted at every
interrupt. Both agree on what its tokens are, so that a list which was accepted excludes what it
says.

* `Config.validate_ok_iff`, `Config.validate_error_iff`: which options are accepted, and the fault
  of others;
* `Record.text_interrupt`: the line of an interrupt;
* `Setup.LogsInterrupt`: what an interrupt adds to the log of a session;
* `Setup.interrupts_excluded`: what every list excludes, what the check accepts, and what a session
  that traces interrupts logs.
-/

namespace RealModeTrace

open Exclusion

/-! ### Checked options -/

namespace Config

/-- With numbers in range, options are refused for the first token that is neither empty nor two
digits. -/
theorem validate_of_inRange {c : Config} (h : c.InRange) :
    c.validate = match (tokens c.excludedInterrupts).find? fun token => ¬ Admissible token with
      | some token => .error (.invalidExclusion token)
      | none => .ok () := by
  obtain ⟨hdump, hrate⟩ := h
  have hrate' : c.sampleRate ≠ 0 := by
    intro hzero
    rw [hzero] at hrate
    exact absurd hrate (by decide)
  have hvalidate : c.validate = match firstMalformed? c.excludedInterrupts with
      | some token => .error (.invalidExclusion token)
      | none => .ok () :=
    (if_neg (UInt32.not_lt.2 hdump)).trans (if_neg hrate')
  rw [hvalidate, firstMalformed?_eq]

theorem inRange_of_validate {c : Config} (h : c.validate = .ok ()) : c.InRange := by
  unfold validate at h
  split_ifs at h with hdump hrate
  refine ⟨UInt32.not_lt.1 hdump, ?_⟩
  rw [UInt32.le_iff_toNat_le]
  exact Nat.pos_of_ne_zero fun hzero => hrate (UInt32.toNat_inj.1 hzero)

/-- Options are accepted exactly if their numbers are in range and each token of their list is empty
or two digits. -/
theorem validate_ok_iff {c : Config} : c.validate = .ok () ↔
    c.InRange ∧ ∀ token ∈ tokens c.excludedInterrupts, Admissible token := by
  have hnone : (∀ token ∈ tokens c.excludedInterrupts, Admissible token) ↔
      ((tokens c.excludedInterrupts).find? fun token => ¬ Admissible token) = none := by
    simp
  rw [hnone]
  constructor
  · intro h
    have hrange := inRange_of_validate h
    rw [validate_of_inRange hrange] at h
    refine ⟨hrange, ?_⟩
    split at h
    · cases h
    · next hfind => exact hfind
  · rintro ⟨hrange, hfind⟩
    rw [validate_of_inRange hrange, hfind]

/-- Other options with numbers in range are refused for the first other token. -/
theorem validate_error_iff {c : Config} (h : c.InRange) {e : ConfigError} :
    c.validate = .error e ↔ ∃ token,
      ((tokens c.excludedInterrupts).find? fun token => ¬ Admissible token) = some token ∧
        e = .invalidExclusion token := by
  rw [validate_of_inRange h]
  rcases (tokens c.excludedInterrupts).find? fun token => ¬ Admissible token with _ | token
  · simp
  · simp [eq_comm]

/-- What validating options says about their exclusion list. -/
structure ChecksList (c : Config) : Prop where
  ok_iff : c.validate = .ok () ↔
    c.InRange ∧ ∀ token ∈ tokens c.excludedInterrupts, Admissible token
  error_iff : c.InRange → ∀ e, c.validate = .error e ↔ ∃ token,
    ((tokens c.excludedInterrupts).find? fun token => ¬ Admissible token) = some token ∧
      e = .invalidExclusion token
  /-- A list that is accepted excludes the values of its tokens. -/
  excluded_iff : c.validate = .ok () → ∀ number, excludes c.excludedInterrupts number = true ↔
    ∃ token ∈ tokens c.excludedInterrupts,
      token ≠ "" ∧ Text.natOfDigits 16 token.toList = number.toNat

theorem checksList (c : Config) : c.ChecksList where
  ok_iff := validate_ok_iff
  error_iff hrange _ := validate_error_iff hrange
  excluded_iff h _ := excludes_iff_of_admissible (validate_ok_iff.1 h).2

end Config

/-! ### Interrupt lines -/

/-- What an interrupt line says after its time: the number of the interrupt and the halves of AX. -/
def interruptOpening (number : UInt8) (ax : UInt16) : String :=
  ">> INT " ++ Text.hexByte number ++ "h AH=" ++ Text.hexByte (ax >>> 8).toUInt8 ++ "h AL=" ++
    Text.hexByte ax.toUInt8 ++ "h"

/-- The time at the beginning of a line. -/
def timeStamp (elapsed : UInt64) : String :=
  "[T+" ++ Text.decimalPad 8 elapsed.toNat ++ "ms] "

/-- The line of an interrupt is written whole, and begins with its time, its number and AX. -/
theorem Record.text_interrupt (elapsed : UInt64) (number : UInt8) (registers : Registers) :
    ∃ rest, (Record.timed elapsed (.interrupt number registers)).text =
      timeStamp elapsed ++ interruptOpening number registers.ax ++ rest := by
  have hwhole : (Record.timed elapsed (.interrupt number registers)).text =
      (Record.timed elapsed (.interrupt number registers)).full :=
    text_eq_full_of_names rfl trivial nofun
  rw [hwhole, full_eq]
  -- the opening is made of the first seven pieces
  refine ⟨String.join ((interruptPieces number registers).drop 7), ?_⟩
  simp only [Payload.pieces, interruptPieces, timeStamp, interruptOpening, Registers.ah,
    Registers.al, List.append_assoc, List.cons_append, List.nil_append, List.drop_succ_cons,
    List.drop_zero, String.join_cons, String.append_assoc]

/-! ### Sessions -/

/-- The record that an interrupt makes while interrupts are traced. -/
theorem Session.Sound.answer_interrupt {s : Session} (hs : s.Sound) (hactive : s.isActive = true)
    (hon : s.config.interrupts = true) (clock : Readings) (host : Host) (number : UInt8) :
    s.answer (clock, .event host (.interruptInvoked number)) =
      if excludes s.config.excludedInterrupts number then []
      else [s.stamp (clock.nth 0) (.interrupt number host.registers)] := by
  have hsink : s.writer.isSome = true := by rw [← hs.ready_eq, hs.ready_of_active hactive]
  have htraces : s.traces s.config.interrupts = true := by
    rw [Session.traces, hactive, hon, hsink]
    rfl
  show (s.observe clock host (.interruptInvoked number)).2 = _
  rw [Session.observe_snd]
  simp only [htraces, Bool.true_and]
  cases excludes s.config.excludedInterrupts number <;> rfl

namespace Setup

variable (setup : Setup) (now : Duration) (world : World)

/-- What an interrupt adds to the log of a session after a history. -/
structure LogsInterrupt (h : History) (clock : Readings) (host : Host) (number : UInt8) :
    Prop where
  /-- Nothing, if a token of the list names it. -/
  excluded : (∃ token ∈ tokens (setup.after now world h).config.excludedInterrupts,
      Names token number) →
    setup.lines now world (h ++ [(clock, .event host (.interruptInvoked number))]) =
        setup.lines now world h ∧
      setup.worldAfter now world (h ++ [(clock, .event host (.interruptInvoked number))]) =
        setup.worldAfter now world h
  /-- One line, if none does. -/
  logged : (¬ ∃ token ∈ tokens (setup.after now world h).config.excludedInterrupts,
      Names token number) →
    ∃ rest, setup.lines now world (h ++ [(clock, .event host (.interruptInvoked number))]) =
      setup.lines now world h ++
        [timeStamp ((setup.after now world h).elapsed (clock.nth 0)) ++
          interruptOpening number host.registers.ax ++ rest]
  /-- The lines are what goes to the sink. -/
  delivered : setup.worldAfter now world
      (h ++ [(clock, .event host (.interruptInvoked number))]) =
    ((setup.outlet world).pushAll (setup.lines now world
      (h ++ [(clock, .event host (.interruptInvoked number))]))).world

variable {setup now world}

theorem logsInterrupt {h : History} (hactive : (setup.after now world h).isActive = true)
    (hon : (setup.after now world h).config.interrupts = true) (clock : Readings) (host : Host)
    (number : UInt8) : setup.LogsInterrupt now world h clock host number := by
  have hanswer := (setup.sound_after now world h).answer_interrupt hactive hon clock host number
  have hlines : setup.lines now world (h ++ [(clock, .event host (.interruptInvoked number))]) =
      setup.lines now world h ++ ((setup.after now world h).answer
        (clock, .event host (.interruptInvoked number))).map Record.text := by
    rw [lines, trace_concat, List.map_append]
    rfl
  have hdelivered (k : History) : setup.worldAfter now world k =
      ((setup.outlet world).pushAll (setup.lines now world k)).world :=
    (setup.delivered_after now world k).world_eq
  refine ⟨?_, ?_, hdelivered _⟩
  · intro hexcluded
    rw [hanswer, if_pos (excludes_iff.2 hexcluded), List.map_nil, List.append_nil] at hlines
    exact ⟨hlines, by rw [hdelivered, hdelivered, hlines]⟩
  · intro hfree
    rw [hanswer, if_neg (mt excludes_iff.1 hfree), List.map_singleton] at hlines
    obtain ⟨rest, htext⟩ := Record.text_interrupt
      ((setup.after now world h).elapsed (clock.nth 0)) number host.registers
    refine ⟨rest, ?_⟩
    rw [hlines, ← htext]
    rfl

/-- **Interrupt exclusion is exact.** A list excludes an interrupt exactly if one of its tokens,
between commas and trimmed, is two digits in base sixteen of the value of its number. Options with
numbers in range are accepted exactly if each token is empty or two digits, and refused for the
first token otherwise, so that a list which was accepted excludes exactly the values of its tokens.
While a session is active and interrupts are traced, an interrupt adds nothing to the log if it is
excluded, and otherwise one line that begins, after the time, with its number and the halves of
AX. -/
theorem interrupts_excluded : (∀ list, ListLaw list) ∧ (∀ c : Config, c.ChecksList) ∧
    ∀ (setup : Setup) (now : Duration) (world : World) (h : History),
      (setup.after now world h).isActive = true →
      (setup.after now world h).config.interrupts = true →
      ∀ clock host number, setup.LogsInterrupt now world h clock host number :=
  ⟨listLaw, Config.checksList, fun _ _ _ _ hactive hon clock host number =>
    logsInterrupt hactive hon clock host number⟩

/-- Eager options with a list of which some tokens name an interrupt. -/
def filtered : Setup where
  config := { enabled := true, waitForLoad := false, excludedInterrupts := " 08 ,1c,é,8,1C3," }
  sink := some .capture

/-- Interrupts 1C and 21 in such a session: the first is excluded, and the second is not. -/
theorem interrupts_excluded_filtered :
    (filtered.after 0 {} []).isActive = true ∧
      (filtered.after 0 {} []).config.interrupts = true ∧
      (∃ token ∈ tokens (filtered.after 0 {} []).config.excludedInterrupts, Names token 0x1C) ∧
      (¬ ∃ token ∈ tokens (filtered.after 0 {} []).config.excludedInterrupts,
        Names token 0x21) ∧
      filtered.LogsInterrupt 0 {} [] 5 .blank 0x1C ∧
      filtered.LogsInterrupt 0 {} [] 5 .blank 0x21 := by
  have hactive : (filtered.after 0 {} []).isActive = true := by decide +kernel
  have hon : (filtered.after 0 {} []).config.interrupts = true := by decide +kernel
  have hlogs := interrupts_excluded.2.2 filtered 0 {} [] hactive hon 5 .blank
  refine ⟨hactive, hon, ?_, ?_, hlogs 0x1C, hlogs 0x21⟩
  · rw [← excludes_iff]
    decide +kernel
  · rw [← excludes_iff]
    decide +kernel

end Setup

end RealModeTrace
