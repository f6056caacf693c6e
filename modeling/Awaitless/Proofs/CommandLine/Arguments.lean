import Awaitless.CommandLine.Arguments
import Awaitless.Proofs.Failure

/-!
# Arguments that are understood

A run is handed a folder that is not empty. That is checked where an option takes its value, and
everything that is read afterwards only adds to the options; so it is kept from one argument to the
next, whichever shape the argument has.

An argument is a long option, a row of letters, or a value for the option before it. For each of
these shapes there is one lemma, and for the row of letters an induction, since any letter may be
the last one that is a switch. The whole command line is an induction on its arguments, in which an
option may take the argument that follows it as well.

* `Options.Sound` — no path has been given as an empty text.
* `Options.Sound.readAll` — reading arguments keeps this.
* `Command.folder_ne_empty` — every run has a folder to work on.
-/

namespace Awaitless.CommandLine

/-- No path has been given as an empty text. -/
def Options.Sound (o : Options) : Prop :=
  ∀ s value, (s, value) ∈ o.values → s.isPath = true → value ≠ []

/-- No path has been given as an empty text, and what is to be done is not a run. -/
def Step.Sound : Step → Prop
  | .next o => o.Sound
  | .awaiting _ o => o.Sound
  | .done c => ∀ i, c ≠ .run i

namespace Options

variable {o o' : Options}

/-- An empty path is refused when it is given. -/
theorem Sound.give (h : o.Sound) {s : Setting} {value : RawText} (hgive : o.give s value = .ok o') :
    o'.Sound := by
  unfold Options.give at hgive
  split at hgive
  · cases hgive
  · rename_i hvalue
    split at hgive
    · cases hgive
    · split at hgive
      · cases hgive
      · cases hgive
        intro s' value' hmem hpath
        rcases List.mem_cons.mp hmem with heq | hmem
        · cases heq
          exact fun hempty => hvalue ⟨hpath, hempty⟩
        · exact h s' value' hmem hpath

/-- Switches say nothing about paths. -/
theorem Sound.turnOn (h : o.Sound) {s : Switch} (hon : o.turnOn s = .ok o') : o'.Sound := by
  unfold Options.turnOn at hon
  split at hon
  · cases hon
  · cases hon
    exact h

/-- A switch is turned on, or asks for a text instead of a run. -/
theorem Sound.switch (h : o.Sound) {s : Switch} {step : Step} (hswitch : o.switch s = .ok step) :
    step.Sound := by
  unfold Options.switch at hswitch
  split at hswitch
  · cases hswitch
    exact nofun
  · cases hswitch
    exact nofun
  · obtain ⟨o', hon, rfl⟩ := exists_of_map_eq_ok hswitch
    exact h.turnOn hon

theorem Sound.readLong (h : o.Sound) {argument : RawText} {step : Step}
    (hread : o.readLong argument = .ok step) : step.Sound := by
  unfold Options.readLong at hread
  dsimp only at hread
  split at hread
  · cases hread
  · obtain ⟨o', hgive, rfl⟩ := exists_of_map_eq_ok hread
    exact h.give hgive
  · cases hread
    exact h
  · cases hread
  · exact h.switch hread

/-- By induction on the letters: a switch goes on to the next one, an option takes all that follow.
-/
theorem Sound.readLetters (h : o.Sound) {letters : RawText} {step : Step}
    (hread : o.readLetters letters = .ok step) : step.Sound := by
  induction letters generalizing o with
  | nil =>
    cases hread
    exact h
  | cons b rest ih =>
    unfold Options.readLetters at hread
    split at hread
    · cases hread
    · split at hread
      · cases hread
        exact h
      · -- the value is what follows, with or without the sign between
        split at hread
        · obtain ⟨o', hgive, rfl⟩ := exists_of_map_eq_ok hread
          exact h.give hgive
        · obtain ⟨o', hgive, rfl⟩ := exists_of_map_eq_ok hread
          exact h.give hgive
    · obtain ⟨first, hswitch, hread⟩ := exists_of_bind_eq_ok hread
      have hfirst := h.switch hswitch
      split at hread
      · exact ih hfirst hread
      · cases hread
        exact hfirst

/-- A run is started only if a folder has been given. -/
theorem Sound.folder_ne_empty (h : o.Sound) {i : Invocation} (hinvocation : o.invocation = .ok i) :
    i.folder ≠ [] := by
  unfold Options.invocation at hinvocation
  split at hinvocation
  · cases hinvocation
  · rename_i folder hfolder
    cases hinvocation
    obtain ⟨before, after, hvalues, -⟩ := List.lookup_eq_some_iff.mp hfolder
    exact h .folder folder (by simp [hvalues]) rfl

/-- An argument is read by its first bytes; each way of reading keeps options sound. -/
theorem Sound.readArgument (h : o.Sound) {argument : RawText} {rest : List RawText} {step : Step}
    (hread : o.readArgument argument rest = .ok step) : step.Sound := by
  unfold Options.readArgument at hread
  split at hread
  · split at hread
    · cases hread
      exact h
    · cases hread
  · exact h.readLong hread
  · exact h.readLetters hread
  · cases hread

/-- Whatever is read until a run is asked for, its folder is not empty. -/
theorem Sound.readAll {o : Options} (h : o.Sound) {i : Invocation} :
    (arguments : List RawText) → o.readAll arguments = .ok (.run i) → i.folder ≠ []
  | [], hread => by
    obtain ⟨i', hinvocation, heq⟩ := exists_of_map_eq_ok hread
    cases heq
    exact h.folder_ne_empty hinvocation
  | argument :: rest, hread => by
    rw [Options.readAll] at hread
    obtain ⟨step, hstep, hread⟩ := exists_of_bind_eq_ok hread
    have hsound := h.readArgument hstep
    cases step with
    | done c =>
      cases hread
      exact absurd rfl (hsound i)
    | next o' => exact Sound.readAll hsound rest hread
    | awaiting s o' =>
      -- the option before takes the next argument as its value
      match rest, hread with
      | [], hread => cases hread
      | value :: rest, hread =>
        dsimp only at hread
        split at hread
        · obtain ⟨o'', hgive, hread⟩ := exists_of_bind_eq_ok hread
          exact Sound.readAll (Sound.give hsound hgive) rest hread
        · cases hread

end Options

/-- Every run has a folder to work on. -/
theorem Command.folder_ne_empty {arguments : List RawText} {i : Invocation}
    (h : Command.ofArguments arguments = .ok (.run i)) : i.folder ≠ [] :=
  Options.Sound.readAll (o := {}) (fun _ _ hmem => nomatch hmem) arguments h

end Awaitless.CommandLine
