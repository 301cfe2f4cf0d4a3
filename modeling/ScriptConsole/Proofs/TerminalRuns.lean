import Mathlib
import ScriptConsole.Proofs.Rendering

/-!
# Runs of a terminal

A host sends a terminal one event after another. `Terminal.Moves` says once what an event can do to
the state; what holds after every run follows from it with `run_induction`.
-/

namespace ScriptConsole.Terminal

/-- What an event can do to a terminal, whatever it draws. -/
inductive Moves (terminal : Terminal) : Event → Terminal → Prop
  | submit (text : String) : Moves terminal (.submit text) (terminal.submit text).terminal
  | enter {code : UInt8} (h : Key.ofCode code = .enter) :
      Moves terminal (.key code) (submit { terminal with line := [] } terminal.input).terminal
  | edit {code : UInt8} (h : Key.ofCode code ≠ .enter) :
      Moves terminal (.key code) (terminal.edit (Key.ofCode code))
  | tick : Moves terminal .tick { terminal with ticks := terminal.ticks + 1 }
  | connect : Moves terminal .connect terminal

lemma handle_key_enter {code : UInt8} (h : Key.ofCode code = .enter) (terminal : Terminal) :
    (terminal.handle (.key code)).terminal =
      (submit { terminal with line := [] } terminal.input).terminal := by
  rw [handle, h]
  rfl

/-- The keys that do nothing to the state edit it to what it is. -/
lemma handle_key_edit {code : UInt8} (h : Key.ofCode code ≠ .enter) (terminal : Terminal) :
    (terminal.handle (.key code)).terminal = terminal.edit (Key.ofCode code) := by
  rw [handle]
  generalize Key.ofCode code = key at h
  cases key with
  | enter => exact absurd rfl h
  | _ => rfl

theorem moves_handle (terminal : Terminal) (event : Event) :
    Moves terminal event (terminal.handle event).terminal := by
  cases event with
  | connect => exact .connect
  | tick => exact .tick
  | submit text => exact .submit text
  | key code =>
    by_cases henter : Key.ofCode code = .enter
    · rw [handle_key_enter henter]
      exact .enter henter
    · rw [handle_key_edit henter]
      exact .edit henter

/-- Only a line with a token comes into the history. -/
lemma mem_history_submit {terminal : Terminal} {text entry : String}
    (h : entry ∈ (terminal.submit text).terminal.history) :
    entry ∈ terminal.history ∨ entry = text ∧ Token.scan text ≠ [] := by
  change entry ∈ if (Token.scan text).isEmpty then terminal.history else terminal.history ++ [text] at h
  split at h
  · exact .inl h
  · next htokens =>
    rcases List.mem_append.mp h with hold | hnew
    · exact .inl hold
    · exact .inr ⟨List.mem_singleton.mp hnew, mt List.isEmpty_iff.mpr htokens⟩

/-- What moving through the history can do: the place, the kept line and the input line change together
or not at all, and what is shown is an entry or the kept line. -/
theorem browse_cases (terminal : Terminal) (direction : Direction) :
    terminal.browse direction = terminal ∨
      ∃ focus draft line, terminal.browse direction = { terminal with focus, draft, line } ∧
        (focus = terminal.focus - 1 ∨ focus = min (terminal.focus + 1) terminal.history.length) ∧
        (draft = terminal.line ∨ draft = terminal.draft) ∧
        ((∃ entry ∈ terminal.history, line = Line.ofText terminal.settings.maxInput entry) ∨
          line = draft.take terminal.settings.maxInput) := by
  have hcases : terminal.browse direction = terminal ∨ terminal.browse direction = _ :=
    ite_eq_or_eq _ _ _
  rcases hcases with hsame | hmoved
  · exact .inl hsame
  · refine .inr ⟨_, _, _, hmoved, ?_, ite_eq_or_eq _ _ _, ?_⟩
    · cases direction with
      | older => exact .inl rfl
      | newer => exact .inr rfl
    · split
      next entry hentry => exact .inl ⟨entry, List.mem_of_getElem? hentry, rfl⟩
      next => exact .inr rfl

/-- The terminal after events. -/
def run (terminal : Terminal) (events : List Event) : Terminal :=
  events.foldl (fun terminal event => (terminal.handle event).terminal) terminal

lemma run_concat (terminal : Terminal) (events : List Event) (event : Event) :
    terminal.run (events ++ [event]) = ((terminal.run events).handle event).terminal :=
  List.foldl_concat _ _ _ _

/-- What holds at the start and is kept by each event where it occurs holds at the end. -/
theorem run_induction {P : Terminal → Prop} {terminal : Terminal} {events : List Event}
    (hstart : P terminal)
    (hstep : ∀ before event after next, events = before ++ event :: after →
      Moves (terminal.run before) event next → P (terminal.run before) → P next) :
    P (terminal.run events) := by
  induction events using List.reverseRecOn with
  | nil => exact hstart
  | append_singleton events event ih =>
    have hbefore : P (terminal.run events) := by
      apply ih
      intro before event' after next hevents
      apply hstep before event' (after ++ [event])
      rw [hevents, List.append_assoc, List.cons_append]
    rw [run_concat]
    exact hstep events event [] _ rfl (moves_handle _ event) hbefore

lemma Moves.settings_eq {terminal next : Terminal} {event : Event} (h : Moves terminal event next) :
    next.settings = terminal.settings := by
  cases h with
  | edit => exact (Display.edit_kept terminal _).2
  | _ => rfl

lemma settings_run (terminal : Terminal) (events : List Event) :
    (terminal.run events).settings = terminal.settings := by
  apply run_induction (P := fun t => t.settings = terminal.settings) rfl
  intro before event after next _ hmoves hsettings
  exact hmoves.settings_eq.trans hsettings

end ScriptConsole.Terminal
