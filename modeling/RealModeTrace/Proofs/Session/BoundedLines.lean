import RealModeTrace.Proofs.Session.Output
import RealModeTrace.Proofs.Session.Records

/-!
# Bounded lines

Whatever a session is told, its sink gets the records of the session as lines of bounded size, each
the longest prefix of the whole line that fits; only texts from outside make a line too long.

* `Record.Bounded`: the line of a record is the longest prefix that fits, however it was rendered;
* `Setup.BoundsLines`: the lines of a session are bounded, and whole if they show no text from
  outside;
* `Setup.lines_bounded`: they are so after every history of every session.
-/

namespace RealModeTrace

/-- The line of a record is the longest prefix of the whole line that ends between two characters
and fits: 512 bytes, and 1600 for file data. The whole line is the time or the mark of a banner, and
what follows. -/
structure Record.Bounded (r : Record) : Prop where
  full_eq : r.full =
    match r with
    | .timed elapsed payload =>
      "[T+" ++ Text.decimalPad 8 elapsed.toNat ++ "ms] " ++ String.join payload.pieces
    | .banner b => "[debugtrace] " ++ b.text
  capacity_eq : r.capacity =
    match r with
    | .timed _ (.fileData _) => 1600
    | _ => 512
  longest_iff : ∀ t, LongestPrefix r.capacity r.full t ↔ t = r.text
  /-- The pieces in which the line is written, and what the buffer held before, do not matter. -/
  rendered : ∀ (b : LineBuffer) (pieces : List String), String.join pieces = r.full →
    (b.render r.capacity pieces).text = r.text

theorem Record.bounded (r : Record) : r.Bounded where
  full_eq := r.full_eq
  capacity_eq := by
    cases r with
    | timed elapsed payload => cases payload <;> rfl
    | banner b => rfl
  longest_iff := r.longestPrefix_iff
  rendered b _ h := r.render_eq_text b h

namespace Setup

variable (setup : Setup) (now : Duration) (world : World)

/-- What bounds the lines of a session. -/
structure BoundsLines (h : History) : Prop where
  /-- The sink gets the lines of the records in order, and the world is changed by nothing else. -/
  delivered : setup.worldAfter now world h =
    ((setup.outlet world).pushAll ((setup.trace now world h).map Record.text)).world
  bounded : ∀ r ∈ setup.trace now world h, r.Bounded
  /-- A line without texts from outside is never cut, whatever it shows. A depth must have four
  hundred digits at most; a signed word of thirty-two bits has ten. -/
  whole : ∀ r ∈ setup.trace now world h, r.names = [] →
    (∀ depth ∈ r.depth?, depth.natAbs < 10 ^ 400) → r.text = r.full
  /-- Depths are not below minus one, and are bounded by the number of loads. -/
  depths : ∀ r ∈ setup.trace now world h, ∀ depth ∈ r.depth?, -1 ≤ depth ∧ depth ≤ loads h

/-- **Lines are bounded.** After every history of every session, its sink has got the lines of its
records; each line is the longest prefix of the whole line that ends between two characters and has
at most 512 bytes, or 1600 for file data, however it was rendered; and the lines of instructions,
interrupts, file data, video modes, and of programs that exit or stay resident are whole, up to a
depth of four hundred digits. -/
theorem lines_bounded (h : History) : setup.BoundsLines now world h where
  delivered := (setup.delivered_after now world h).world_eq
  bounded r _ := r.bounded
  whole _ hr hnames hdepth :=
    Record.text_eq_full_of_names hnames (setup.windowed_of_mem_trace now world hr) hdepth
  depths _ hr _ hd := setup.depth_of_mem_trace now world hr hd

end Setup

end RealModeTrace
