import Mathlib
import ScriptConsole.Proofs.TerminalRuns

/-!
# The bounds of the line editor

The input line, the line kept while the history is shown, the history and the place in it change
together. `Terminal.InBounds` says how they stay in step, and no event breaks it
(`editor_stays_in_bounds`). Two keys repeat a small step until the line tells them to stop: `Line.Tabs`
and `Line.Unwinds` carry these steps out one by one, count them, and end with the line that the key
leaves.
-/

namespace ScriptConsole

namespace Line

/-- Whether the line is full or ends at a tab stop. -/
def AtStop (maxInput tabWidth : Nat) (line : Line) : Prop :=
  maxInput ≤ line.length ∨ line.length % max tabWidth 1 = 0

/-- `Tabs maxInput tabWidth turns line after`: when spaces are added to `line` one by one up to the
first that leaves it full or at a tab stop, `turns` of them are added, and the line is `after`. -/
inductive Tabs (maxInput tabWidth : Nat) : Nat → Line → Line → Prop
  | stop {line : Line} (h : AtStop maxInput tabWidth (line ++ [space])) :
      Tabs maxInput tabWidth 1 line (line ++ [space])
  | next {line after : Line} {turns : Nat} (h : ¬AtStop maxInput tabWidth (line ++ [space]))
      (hrest : Tabs maxInput tabWidth turns (line ++ [space]) after) :
      Tabs maxInput tabWidth (turns + 1) line after

/-- `Unwinds turns line after`: when the last byte of `line` is removed again and again up to the first
space or the start of the line, this is tried `turns` times, and the line is `after`. -/
inductive Unwinds : Nat → Line → Line → Prop
  | empty : Unwinds 1 [] []
  | space (line : Line) : Unwinds 1 (line ++ [space]) line
  | next {line after : Line} {byte : UInt8} {turns : Nat} (h : byte ≠ Line.space)
      (hrest : Unwinds turns line after) : Unwinds (turns + 1) (line ++ [byte]) after

/-- The first length at which there is a stop determines how many turns are made. -/
lemma tabs_replicate {maxInput tabWidth turns : Nat} {line : Line} (hturns : 1 ≤ turns)
    (hbetween : ∀ length, line.length < length → length < line.length + turns →
      length < maxInput ∧ length % max tabWidth 1 ≠ 0)
    (hstop : maxInput ≤ line.length + turns ∨ (line.length + turns) % max tabWidth 1 = 0) :
    Tabs maxInput tabWidth turns line (line ++ List.replicate turns space) := by
  have hlength : (line ++ [space]).length = line.length + 1 := List.length_append
  induction turns, hturns using Nat.le_induction generalizing line with
  | base =>
    apply Tabs.stop
    rw [AtStop, hlength]
    exact hstop
  | succ turns hturns ih =>
    have hafter : line ++ List.replicate (turns + 1) space =
        line ++ [space] ++ List.replicate turns space := by
      rw [List.replicate_succ, List.append_assoc, List.singleton_append]
    rw [hafter]
    apply Tabs.next
    · obtain ⟨hroom, hmod⟩ := hbetween (line.length + 1) (by omega) (by omega)
      rw [AtStop, hlength]
      omega
    · apply ih
      · intro length hlower hupper
        exact hbetween length (by omega) (by omega)
      · rw [hlength, Nat.add_assoc, Nat.add_comm 1 turns]
        exact hstop
      · exact List.length_append

/-- Adding spaces ends within the distance of two tab stops, also if that is given as zero. -/
theorem tabs_tab {maxInput tabWidth : Nat} {line : Line} (hroom : line.length < maxInput) :
    ∃ turns, turns ≤ max tabWidth 1 ∧
      Tabs maxInput tabWidth turns line (line.tab maxInput tabWidth) := by
  have hpos : 0 < max tabWidth 1 := by omega
  -- the tab stop behind the line, and what lies between
  have hdiv : max tabWidth 1 * (line.length / max tabWidth 1) + line.length % max tabWidth 1 =
      line.length := Nat.div_add_mod _ _
  have hmod : line.length % max tabWidth 1 < max tabWidth 1 := Nat.mod_lt _ hpos
  have hnext : (line.length / max tabWidth 1 + 1) * max tabWidth 1 =
      max tabWidth 1 * (line.length / max tabWidth 1) + max tabWidth 1 := by
    rw [Nat.add_mul, Nat.one_mul, Nat.mul_comm]
  have hbetween (length : Nat) (hlower : line.length < length)
      (hupper : length < max tabWidth 1 * (line.length / max tabWidth 1) + max tabWidth 1) :
      length % max tabWidth 1 ≠ 0 := by
    have hsplit : length = max tabWidth 1 * (line.length / max tabWidth 1) +
        (length - max tabWidth 1 * (line.length / max tabWidth 1)) := by omega
    rw [hsplit, Nat.mul_add_mod, Nat.mod_eq_of_lt (by omega)]
    omega
  refine ⟨_, ?_, tabs_replicate ?_ ?_ ?_⟩
  · omega
  · omega
  · intro length hlower hupper
    exact ⟨by omega, hbetween length hlower (by omega)⟩
  · by_cases hfull : maxInput ≤ (line.length / max tabWidth 1 + 1) * max tabWidth 1
    · left
      omega
    · right
      have hend : line.length +
          (min maxInput ((line.length / max tabWidth 1 + 1) * max tabWidth 1) - line.length) =
          (line.length / max tabWidth 1 + 1) * max tabWidth 1 := by omega
      rw [hend]
      exact Nat.mul_mod_left _ _

lemma tab_of_full {maxInput : Nat} {line : Line} (hfull : maxInput ≤ line.length) (tabWidth : Nat) :
    line.tab maxInput tabWidth = line := by
  have hnone : min maxInput ((line.length / max tabWidth 1 + 1) * max tabWidth 1) - line.length = 0 := by
    omega
  rw [tab, hnone]
  exact List.append_nil line

lemma deleteWord_concat (line : Line) (byte : UInt8) :
    deleteWord (line ++ [byte]) = if byte = space then line else line.deleteWord := by
  unfold deleteWord
  rw [List.reverse_append, List.reverse_singleton, List.singleton_append]
  by_cases hspace : byte = space
  · rw [List.dropWhile_cons_of_neg (by simp [hspace]), if_pos hspace, List.drop_one, List.tail_cons,
      List.reverse_reverse]
  · rw [List.dropWhile_cons_of_pos (by simp [hspace]), if_neg hspace]

/-- Removing a word ends at the latest when nothing is left to be removed. -/
theorem unwinds_deleteWord (line : Line) :
    ∃ turns, turns ≤ line.length + 1 ∧ Unwinds turns line line.deleteWord := by
  induction line using List.reverseRecOn with
  | nil => exact ⟨1, Nat.le_refl 1, .empty⟩
  | append_singleton line byte ih =>
    rw [deleteWord_concat, List.length_append, List.length_singleton]
    by_cases hspace : byte = space
    · rw [if_pos hspace, hspace]
      exact ⟨1, by omega, .space line⟩
    · obtain ⟨turns, hturns, hunwinds⟩ := ih
      rw [if_neg hspace]
      exact ⟨turns + 1, by omega, .next hspace hunwinds⟩

/-- What is left when a word is removed is nothing, or what stood before a space. -/
lemma Unwinds.eq_nil_or {turns : Nat} {line after : Line} (h : Unwinds turns line after) :
    after = [] ∨ ∃ word, line = after ++ Line.space :: word := by
  induction h with
  | empty => exact .inl rfl
  | space line => exact .inr ⟨[], rfl⟩
  | @next line after byte turns _ _ ih =>
    apply ih.imp id
    rintro ⟨word, rfl⟩
    exact ⟨word ++ [byte], by simp⟩

lemma length_insert_le {maxInput : Nat} {line : Line} (h : line.length ≤ maxInput) (byte : UInt8) :
    (line.insert maxInput byte).length ≤ maxInput := by
  unfold insert
  split
  · rw [List.length_append, List.length_singleton]
    omega
  · exact h

lemma length_tab_le {maxInput : Nat} {line : Line} (h : line.length ≤ maxInput) (tabWidth : Nat) :
    (line.tab maxInput tabWidth).length ≤ maxInput := by
  rw [tab, List.length_append, List.length_replicate]
  omega

lemma length_deleteWord_le (line : Line) : line.deleteWord.length ≤ line.length := by
  obtain ⟨turns, -, hunwinds⟩ := unwinds_deleteWord line
  rcases hunwinds.eq_nil_or with hnil | ⟨word, hword⟩
  · rw [hnil]
    exact Nat.zero_le _
  · have hlength := congrArg List.length hword
    rw [List.length_append] at hlength
    omega

end Line

namespace Terminal

/-- How the fields that the keys work on stay in step. -/
structure InBounds (terminal : Terminal) : Prop where
  focus : terminal.focus ≤ terminal.history.length
  line : terminal.line.length ≤ terminal.settings.maxInput
  draft : terminal.draft.length ≤ terminal.settings.maxInput
  history : ∀ entry ∈ terminal.history, Token.scan entry ≠ []

lemma inBounds_new (settings : Settings) : InBounds (new settings) :=
  ⟨Nat.zero_le _, Nat.zero_le _, Nat.zero_le _, fun _ h => absurd h List.not_mem_nil⟩

section

variable {terminal : Terminal} (h : InBounds terminal)

include h

/-- Whatever text is submitted, the place in the history is behind the last entry afterwards. -/
lemma InBounds.submit (text : String) : InBounds (terminal.submit text).terminal := by
  refine ⟨Nat.le_refl _, h.line, Nat.zero_le _, ?_⟩
  intro entry hentry
  rcases mem_history_submit hentry with hold | ⟨rfl, htokens⟩
  · exact h.history entry hold
  · exact htokens

/-- An entry of the history may be longer than the line may get, so it is cut. -/
lemma InBounds.browse (direction : Direction) : InBounds (terminal.browse direction) := by
  rcases browse_cases terminal direction with
    hsame | ⟨focus, draft, line, hbrowse, hfocus, hdraft, hline⟩
  · rw [hsame]
    exact h
  · have hbound := h.focus
    rw [hbrowse]
    refine ⟨?_, ?_, ?_, h.history⟩
    · change focus ≤ terminal.history.length
      omega
    · rcases hline with ⟨entry, -, rfl⟩ | rfl
      · exact List.length_take_le _ _
      · exact List.length_take_le _ _
    · rcases hdraft with rfl | rfl
      · exact h.line
      · exact h.draft

lemma InBounds.edit (key : Key) : InBounds (terminal.edit key) := by
  cases key with
  | up => exact h.browse .older
  | down => exact h.browse .newer
  | backspace =>
    have hle : terminal.line.dropLast.length ≤ terminal.line.length := by
      rw [List.length_dropLast]
      omega
    exact ⟨h.focus, hle.trans h.line, h.draft, h.history⟩
  | tab => exact ⟨h.focus, Line.length_tab_le h.line _, h.draft, h.history⟩
  | deleteWord =>
    exact ⟨h.focus, (Line.length_deleteWord_le _).trans h.line, h.draft, h.history⟩
  | char byte => exact ⟨h.focus, Line.length_insert_le h.line byte, h.draft, h.history⟩
  | enter | escape | unknown => exact h

lemma InBounds.moves {event : Event} {next : Terminal} (hmoves : Moves terminal event next) :
    InBounds next := by
  cases hmoves with
  | submit text => exact h.submit text
  | enter henter =>
    have hcleared : InBounds { terminal with line := [] } :=
      ⟨h.focus, Nat.zero_le _, h.draft, h.history⟩
    exact hcleared.submit terminal.input
  | edit hkey => exact h.edit _
  | tick => exact ⟨h.focus, h.line, h.draft, h.history⟩
  | connect => exact h

end

lemma inBounds_run (settings : Settings) (events : List Event) :
    InBounds ((new settings).run events) :=
  run_induction (inBounds_new settings) fun _ _ _ _ _ hmoves h => h.moves hmoves

/-- After any events on a new terminal the place in the history is one of its entries or just behind
them, neither the input line nor the line kept for it is longer than it may be, and every entry of the
history has a token. The two keys that repeat a step come to an end: the key for tab stops after no
more steps than the distance of tab stops, or at once if the line is full, and the key that removes a
word after no more than one step for each byte and one that finds none. -/
theorem editor_stays_in_bounds (settings : Settings) (events : List Event) :
    let terminal := (new settings).run events
    let press (code : UInt8) := (terminal.handle (.key code)).terminal.line
    terminal.focus ≤ terminal.history.length ∧
      terminal.line.length ≤ settings.maxInput ∧
      terminal.draft.length ≤ settings.maxInput ∧
      (∀ entry ∈ terminal.history, Token.scan entry ≠ []) ∧
      (∀ code, Key.ofCode code = .tab →
        if terminal.line.length < settings.maxInput then
          ∃ turns, turns ≤ max settings.tabWidth 1 ∧
            Line.Tabs settings.maxInput settings.tabWidth turns terminal.line (press code)
        else press code = terminal.line) ∧
      ∀ code, Key.ofCode code = .deleteWord →
        ∃ turns, turns ≤ terminal.line.length + 1 ∧
          Line.Unwinds turns terminal.line (press code) := by
  intro terminal press
  have hbounds : InBounds terminal := inBounds_run settings events
  have hsettings : terminal.settings = settings := settings_run (new settings) events
  refine ⟨hbounds.focus, hsettings ▸ hbounds.line, hsettings ▸ hbounds.draft, hbounds.history, ?_, ?_⟩
  · intro code htab
    have hpress : press code = terminal.line.tab settings.maxInput settings.tabWidth := by
      rw [← hsettings]
      dsimp only [press]
      rw [handle_key_edit (by rw [htab]; decide), htab]
      rfl
    rw [hpress]
    split
    · next hroom => exact Line.tabs_tab hroom
    · next hfull => exact Line.tab_of_full (Nat.le_of_not_lt hfull) _
  · intro code hdelete
    have hpress : press code = terminal.line.deleteWord := by
      dsimp only [press]
      rw [handle_key_edit (by rw [hdelete]; decide), hdelete]
      rfl
    rw [hpress]
    exact Line.unwinds_deleteWord terminal.line

end Terminal

end ScriptConsole
