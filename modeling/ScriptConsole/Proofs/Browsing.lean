import Mathlib
import ScriptConsole.Proofs.LineEditing
import ScriptConsole.Proofs.Scrollback

/-!
# Moving through the history

The place behind the last entry of the history belongs to the line that is new. When it is left, this
line is kept as the draft, and nothing but leaving it again changes the draft until a line is
submitted. So the line that is found on coming back is the one that was left (`browsing_restores_draft`),
whatever was done to the entries in between.
-/

namespace ScriptConsole

/-- Whether the event submits a line. -/
def Event.submits : Event → Bool
  | .submit _ => true
  | .key code => Key.ofCode code = .enter
  | .connect | .tick => false

namespace Terminal

/-- The states that a host can bring a terminal into: it starts one on any session, sends it events,
and may change the session in between. -/
inductive Reachable (settings : Settings) : Terminal → Prop
  | start (session : Session) : Reachable settings (withSession settings session)
  | handle {terminal : Terminal} (event : Event) (h : Reachable settings terminal) :
      Reachable settings (terminal.handle event).terminal
  | session {terminal : Terminal} (session : Session) (h : Reachable settings terminal) :
      Reachable settings { terminal with session }

namespace Reachable

variable {settings : Settings} {terminal : Terminal} (h : Reachable settings terminal)

include h

lemma settings_eq : terminal.settings = settings := by
  induction h with
  | start => rfl
  | handle event _ ih => exact (moves_handle _ event).settings_eq.trans ih
  | session _ _ ih => exact ih

lemma inBounds : InBounds terminal := by
  induction h with
  | start =>
    exact ⟨Nat.zero_le _, Nat.zero_le _, Nat.zero_le _, fun _ hentry => absurd hentry List.not_mem_nil⟩
  | handle event _ ih => exact ih.moves (moves_handle _ event)
  | session _ _ ih => exact ⟨ih.focus, ih.line, ih.draft, ih.history⟩

lemma run (events : List Event) : Reachable settings (terminal.run events) := by
  induction events using List.reverseRecOn with
  | nil => exact h
  | append_singleton events event ih =>
    rw [run_concat]
    exact ih.handle event

end Reachable

/-- The key that moves in a direction. -/
def Direction.key : Direction → Key
  | .older => .up
  | .newer => .down

section

variable (terminal : Terminal)

lemma focus_browse_older : (terminal.browse .older).focus = terminal.focus - 1 := by
  unfold browse
  dsimp only
  split
  · omega
  · rfl

lemma focus_browse_newer :
    (terminal.browse .newer).focus = min (terminal.focus + 1) terminal.history.length := by
  unfold browse
  dsimp only
  split
  · omega
  · rfl

lemma history_browse (direction : Direction) :
    (terminal.browse direction).history = terminal.history := by
  rcases browse_cases terminal direction with hsame | ⟨focus, draft, line, hbrowse, -⟩
  · rw [hsame]
  · rw [hbrowse]

/-- Either the new line is shown and stays, or the place that is reached decides what is shown. -/
lemma browse_spec (direction : Direction) :
    let next := terminal.browse direction
    (terminal.focus = terminal.history.length ∧ next.focus = terminal.history.length ∧
        next = terminal) ∨
      (¬(terminal.focus = terminal.history.length ∧ next.focus = terminal.history.length) ∧
        next.draft =
          (if terminal.focus = terminal.history.length then terminal.line else terminal.draft) ∧
        next.line = match terminal.history[next.focus]? with
          | some entry => Line.ofText terminal.settings.maxInput entry
          | none => next.draft.take terminal.settings.maxInput) := by
  -- what follows is the same for both directions, once it is known which place is reached
  obtain ⟨focus, hbrowse⟩ : ∃ focus, terminal.browse direction =
      if terminal.focus = terminal.history.length ∧ focus = terminal.history.length then terminal
      else
        let draft :=
          if terminal.focus = terminal.history.length then terminal.line else terminal.draft
        let line := match terminal.history[focus]? with
          | some entry => Line.ofText terminal.settings.maxInput entry
          | none => draft.take terminal.settings.maxInput
        { terminal with focus, draft, line } := by
    cases direction <;> exact ⟨_, rfl⟩
  dsimp only
  by_cases hstays : terminal.focus = terminal.history.length ∧ focus = terminal.history.length
  · left
    rw [hbrowse, if_pos hstays]
    exact ⟨hstays.1, hstays.1, rfl⟩
  · right
    rw [hbrowse, if_neg hstays]
    exact ⟨hstays, rfl, rfl⟩

lemma draft_browse (direction : Direction) :
    (terminal.browse direction).draft =
      if terminal.focus = terminal.history.length ∧
        (terminal.browse direction).focus ≠ terminal.history.length
      then terminal.line else terminal.draft := by
  rcases terminal.browse_spec direction with ⟨-, hnewest, hsame⟩ | ⟨hmoves, hdraft, -⟩
  · rw [if_neg fun hleft => hleft.2 hnewest, hsame]
  · rw [hdraft]
    by_cases hfocus : terminal.focus = terminal.history.length
    · rw [if_pos hfocus, if_pos ⟨hfocus, fun hnewest => hmoves ⟨hfocus, hnewest⟩⟩]
    · rw [if_neg hfocus, if_neg fun hleft => hfocus hleft.1]

lemma line_browse_of_entry {direction : Direction} {entry : String}
    (hentry : terminal.history[(terminal.browse direction).focus]? = some entry) :
    (terminal.browse direction).line = Line.ofText terminal.settings.maxInput entry := by
  rcases terminal.browse_spec direction with ⟨-, hnewest, -⟩ | ⟨-, -, hline⟩
  · rw [hnewest, List.getElem?_eq_none (Nat.le_refl _)] at hentry
    cases hentry
  · rw [hline, hentry]

lemma line_browse_of_newest {direction : Direction}
    (hold : terminal.focus ≠ terminal.history.length)
    (hnewest : (terminal.browse direction).focus = terminal.history.length) :
    (terminal.browse direction).line = terminal.draft.take terminal.settings.maxInput := by
  rcases terminal.browse_spec direction with ⟨hfocus, -⟩ | ⟨-, hdraft, hline⟩
  · exact absurd hfocus hold
  · rw [hline, hdraft, hnewest, List.getElem?_eq_none (Nat.le_refl _), if_neg hold]

lemma handle_browse {code : UInt8} {direction : Direction} (h : Key.ofCode code = direction.key) :
    (terminal.handle (.key code)).terminal = terminal.browse direction := by
  have henter : Key.ofCode code ≠ .enter := by
    rw [h]
    cases direction <;> decide
  rw [handle_key_edit henter, h]
  cases direction <;> rfl

/-- An event that submits nothing moves through the history, or changes the line and the clock only. -/
lemma browses_or_keeps {event : Event} (h : event.submits = false) :
    (∃ code direction, event = .key code ∧ Key.ofCode code = direction.key ∧
        (terminal.handle event).terminal = terminal.browse direction) ∨
      ∃ line ticks, (terminal.handle event).terminal = { terminal with line, ticks } := by
  cases event with
  | submit text => cases h
  | connect => exact .inr ⟨terminal.line, terminal.ticks, rfl⟩
  | tick => exact .inr ⟨terminal.line, terminal.ticks + 1, rfl⟩
  | key code =>
    have henter : Key.ofCode code ≠ .enter := of_decide_eq_false h
    cases hkey : Key.ofCode code with
    | up => exact .inl ⟨code, .older, rfl, hkey, terminal.handle_browse hkey⟩
    | down => exact .inl ⟨code, .newer, rfl, hkey, terminal.handle_browse hkey⟩
    | enter => exact absurd hkey henter
    | _ =>
      right
      rw [handle_key_edit henter, hkey]
      exact ⟨_, terminal.ticks, rfl⟩

lemma history_handle {event : Event} (h : event.submits = false) :
    (terminal.handle event).terminal.history = terminal.history := by
  rcases terminal.browses_or_keeps h with ⟨code, direction, -, -, hnext⟩ | ⟨line, ticks, hnext⟩
  · rw [hnext, history_browse]
  · rw [hnext]

/-- The draft changes only when the new line is left. -/
lemma draft_handle {event : Event} (h : event.submits = false) :
    (terminal.handle event).terminal.draft =
      if terminal.focus = terminal.history.length ∧
        (terminal.handle event).terminal.focus ≠ terminal.history.length
      then terminal.line else terminal.draft := by
  rcases terminal.browses_or_keeps h with ⟨code, direction, -, -, hnext⟩ | ⟨line, ticks, hnext⟩
  · simp only [hnext]
    exact terminal.draft_browse direction
  · simp only [hnext]
    rw [if_neg fun hleft => hleft.2 hleft.1]

/-- Only the key for older entries leaves the new line. -/
lemma up_of_left {event : Event} (h : event.submits = false)
    (hfocus : terminal.focus = terminal.history.length)
    (hnext : (terminal.handle event).terminal.focus ≠ terminal.history.length) :
    ∃ code, event = .key code ∧ Key.ofCode code = .up := by
  rcases terminal.browses_or_keeps h with
    ⟨code, direction, hevent, hkey, hbrowse⟩ | ⟨line, ticks, hkept⟩
  · rw [hbrowse] at hnext
    cases direction with
    | older => exact ⟨code, hevent, hkey⟩
    | newer =>
      rw [focus_browse_newer] at hnext
      omega
  · rw [hkept] at hnext
    exact absurd hfocus hnext

lemma run_append (events later : List Event) :
    terminal.run (events ++ later) = (terminal.run events).run later :=
  List.foldl_append

lemma history_run {events : List Event} (hevents : ∀ event ∈ events, event.submits = false) :
    (terminal.run events).history = terminal.history := by
  induction events using List.reverseRecOn with
  | nil => rfl
  | append_singleton events event ih =>
    obtain ⟨hbefore, hevent⟩ := List.forall_mem_append.mp hevents
    rw [run_concat, history_handle _ (hevent event List.mem_cons_self), ih hbefore]

end

/-- The event at this time of a run takes the focus away from the new line. -/
def LeavesAt (terminal : Terminal) (events : List Event) (time : Nat) : Prop :=
  (terminal.run (events.take time)).focus = terminal.history.length ∧
    (terminal.run (events.take (time + 1))).focus ≠ terminal.history.length

/-- Of the events of a run, the one at this time is the last that leaves the new line. -/
structure LastLeftAt (terminal : Terminal) (events : List Event) (time : Nat) : Prop where
  lt : time < events.length
  leaves : LeavesAt terminal events time
  last : ∀ later, time < later → later < events.length → ¬LeavesAt terminal events later

section

variable {terminal : Terminal} {events : List Event} {event : Event} {time : Nat}

lemma leavesAt_concat_of_lt (h : time < events.length) :
    LeavesAt terminal (events ++ [event]) time ↔ LeavesAt terminal events time := by
  unfold LeavesAt
  rw [List.take_append_of_le_length (by omega), List.take_append_of_le_length (by omega)]

lemma leavesAt_concat_length :
    LeavesAt terminal (events ++ [event]) events.length ↔
      (terminal.run events).focus = terminal.history.length ∧
        (terminal.run (events ++ [event])).focus ≠ terminal.history.length := by
  unfold LeavesAt
  rw [List.take_left, List.take_of_length_le (by simp)]

lemma lastLeftAt_length (h : LeavesAt terminal (events ++ [event]) events.length) :
    LastLeftAt terminal (events ++ [event]) events.length := by
  refine ⟨by simp, h, ?_⟩
  intro later hlater hlt
  rw [List.length_append, List.length_singleton] at hlt
  omega

/-- An event that does not leave the new line does not change when that was done last. -/
lemma LastLeftAt.concat (h : LastLeftAt terminal events time)
    (hstays : ¬LeavesAt terminal (events ++ [event]) events.length) :
    LastLeftAt terminal (events ++ [event]) time := by
  have hlt := h.lt
  refine ⟨?_, (leavesAt_concat_of_lt hlt).mpr h.leaves, ?_⟩
  · rw [List.length_append]
    omega
  · intro later hlater hbound hleaves
    rw [List.length_append, List.length_singleton] at hbound
    obtain hbefore | rfl : later < events.length ∨ later = events.length := by omega
    · exact h.last later hlater hbefore ((leavesAt_concat_of_lt hbefore).mp hleaves)
    · exact hstays hleaves

/-- While an entry of the history is in focus, the draft is the line that was left last. -/
lemma exists_lastLeftAt (hnewest : terminal.focus = terminal.history.length)
    (hevents : ∀ event ∈ events, event.submits = false)
    (hfocus : (terminal.run events).focus ≠ terminal.history.length) :
    ∃ time, LastLeftAt terminal events time ∧
      (terminal.run events).draft = (terminal.run (events.take time)).line := by
  induction events using List.reverseRecOn with
  | nil => exact absurd hnewest hfocus
  | append_singleton events event ih =>
    obtain ⟨hbefore, hevent⟩ := List.forall_mem_append.mp hevents
    have hdraft := draft_handle (terminal.run events) (hevent event List.mem_cons_self)
    have hhistory : (terminal.run events).history = terminal.history :=
      terminal.history_run hbefore
    rw [hhistory, ← run_concat] at hdraft
    by_cases hold : (terminal.run events).focus = terminal.history.length
    · refine ⟨events.length, lastLeftAt_length (leavesAt_concat_length.mpr ⟨hold, hfocus⟩), ?_⟩
      rw [hdraft, if_pos ⟨hold, hfocus⟩, List.take_left]
    · obtain ⟨time, hlast, hkept⟩ := ih hbefore hold
      refine ⟨time, hlast.concat fun hleaves => hold (leavesAt_concat_length.mp hleaves).1, ?_⟩
      rw [hdraft, if_neg fun hleft => hold hleft.1, hkept,
        List.take_append_of_le_length (Nat.le_of_lt hlast.lt)]

lemma LastLeftAt.up (h : LastLeftAt terminal events time)
    (hevents : ∀ event ∈ events, event.submits = false) :
    ∃ code, events[time]? = some (.key code) ∧ Key.ofCode code = .up := by
  obtain ⟨event, hevent⟩ : ∃ event, events[time]? = some event :=
    ⟨_, List.getElem?_eq_getElem h.lt⟩
  obtain ⟨hfocus, hnext⟩ := h.leaves
  have hhistory : (terminal.run (events.take time)).history = terminal.history :=
    terminal.history_run fun event hmem => hevents event (List.mem_of_mem_take hmem)
  rw [List.take_add_one, hevent, Option.toList_some, run_concat, ← hhistory] at hnext
  rw [← hhistory] at hfocus
  obtain ⟨code, rfl, hup⟩ := up_of_left _ (hevents event (List.mem_of_getElem? hevent)) hfocus hnext
  exact ⟨code, hevent, hup⟩

/-- Coming back to the new line shows the line that was left last. -/
lemma line_restored {settings : Settings} (hreach : Reachable settings terminal)
    (hnewest : terminal.focus = terminal.history.length)
    (hevents : ∀ event ∈ events, event.submits = false) {code : UInt8} {direction : Direction}
    (hkey : Key.ofCode code = direction.key)
    (hold : (terminal.run events).focus ≠ terminal.history.length)
    (hback : (terminal.run (events ++ [.key code])).focus = terminal.history.length) :
    ∃ time, LastLeftAt terminal events time ∧
      (terminal.run (events ++ [.key code])).line = (terminal.run (events.take time)).line := by
  obtain ⟨time, hlast, hdraft⟩ := exists_lastLeftAt hnewest hevents hold
  refine ⟨time, hlast, ?_⟩
  have hhistory : (terminal.run events).history = terminal.history := terminal.history_run hevents
  have hroom : (terminal.run (events.take time)).line.length ≤ settings.maxInput := by
    have hbounds := (hreach.run (events.take time)).inBounds.line
    rwa [(hreach.run (events.take time)).settings_eq] at hbounds
  rw [run_concat, handle_browse _ hkey, ← hhistory] at hback
  rw [← hhistory] at hold
  rw [run_concat, handle_browse _ hkey, line_browse_of_newest _ hold hback, hdraft,
    (hreach.run events).settings_eq, List.take_of_length_le hroom]

end

lemma submits_replicate {code : UInt8} {direction : Direction} (h : Key.ofCode code = direction.key)
    (n : Nat) : ∀ event ∈ List.replicate n (Event.key code), event.submits = false := by
  intro event hevent
  rw [List.eq_of_mem_replicate hevent]
  apply decide_eq_false
  rw [h]
  cases direction <;> decide

section

variable (terminal : Terminal) {up down : UInt8} (hup : Key.ofCode up = Direction.older.key)
  (hdown : Key.ofCode down = Direction.newer.key)

include hup in
lemma focus_run_up (n : Nat) :
    (terminal.run (List.replicate n (.key up))).focus = terminal.focus - n := by
  induction n with
  | zero => rfl
  | succ n ih =>
    rw [List.replicate_succ', run_concat, handle_browse _ hup, focus_browse_older, ih]
    omega

include hdown in
lemma focus_run_down (hfocus : terminal.focus ≤ terminal.history.length) (n : Nat) :
    (terminal.run (List.replicate n (.key down))).focus =
      min (terminal.focus + n) terminal.history.length := by
  induction n with
  | zero => exact (Nat.min_eq_left hfocus).symm
  | succ n ih =>
    have hhistory := terminal.history_run (submits_replicate hdown n)
    rw [List.replicate_succ', run_concat, handle_browse _ hdown, focus_browse_newer, ih, hhistory]
    omega

include hup hdown in
lemma focus_run_up_down (hfocus : terminal.focus ≤ terminal.history.length) (n m : Nat) :
    (terminal.run (List.replicate n (.key up) ++ List.replicate m (.key down))).focus =
      min (terminal.focus - n + m) terminal.history.length := by
  have hhistory := terminal.history_run (submits_replicate hup n)
  have holder := terminal.focus_run_up hup n
  have hbound : (terminal.run (List.replicate n (.key up))).focus ≤
      (terminal.run (List.replicate n (.key up))).history.length := by
    rw [holder, hhistory]
    omega
  rw [run_append, focus_run_down _ hdown hbound, holder, hhistory]

include hup hdown in
/-- Going to older entries and the same way back restores the line. -/
lemma line_run_up_down {settings : Settings} (hreach : Reachable settings terminal)
    (hnewest : terminal.focus = terminal.history.length) {n : Nat} (hn : n ≤ terminal.history.length) :
    (terminal.run (List.replicate n (.key up) ++ List.replicate n (.key down))).line =
      terminal.line := by
  have hfocus (k m : Nat) := terminal.focus_run_up_down hup hdown (Nat.le_of_eq hnewest) k m
  cases n with
  | zero => rfl
  | succ n =>
    have hevents : ∀ event ∈ List.replicate (n + 1) (Event.key up) ++ List.replicate n (.key down),
        event.submits = false :=
      List.forall_mem_append.mpr ⟨submits_replicate hup (n + 1), submits_replicate hdown n⟩
    have hold := hfocus (n + 1) n
    have hback := hfocus (n + 1) (n + 1)
    rw [List.replicate_succ' (n := n) (a := Event.key down), ← List.append_assoc] at hback ⊢
    obtain ⟨time, hlast, hline⟩ := line_restored hreach hnewest hevents hdown (by omega) (by omega)
    -- on the way the new line is in focus at the very start only
    have hstart : time = 0 := by
      have hlt := hlast.lt
      have hleft := hlast.leaves.1
      rw [List.take_append, List.take_replicate, List.take_replicate, hfocus] at hleft
      rw [List.length_append] at hlt
      simp only [List.length_replicate] at hlt hleft
      omega
    rw [hline, hstart]
    rfl

end

/-- Let the new line be in focus, and let any events follow that submit nothing. The history stays as
it is. A key that moves to an entry shows as much of it as the line may hold, and one that comes back
to the new line shows the line as it was just before the key that left it last. So as many steps back
as there were steps to older entries restore the line. -/
theorem browsing_restores_draft {settings : Settings} {terminal : Terminal}
    (hreach : Reachable settings terminal) (hnewest : terminal.focus = terminal.history.length) :
    (∀ events : List Event, (∀ event ∈ events, event.submits = false) →
      (terminal.run events).history = terminal.history ∧
      ∀ (code : UInt8) (direction : Direction), Key.ofCode code = direction.key →
        let next := terminal.run (events ++ [.key code])
        (∀ hentry : next.focus < terminal.history.length,
          next.line = (Text.Utf8.encode terminal.history[next.focus]).take settings.maxInput) ∧
        ((terminal.run events).focus < terminal.history.length →
          next.focus = terminal.history.length →
          ∃ time up, LastLeftAt terminal events time ∧ events[time]? = some (.key up) ∧
            Key.ofCode up = .up ∧ next.line = (terminal.run (events.take time)).line)) ∧
    ∀ (n : Nat) (up down : UInt8), n ≤ terminal.history.length → Key.ofCode up = .up →
      Key.ofCode down = .down →
      let back := terminal.run (List.replicate n (.key up) ++ List.replicate n (.key down))
      back.line = terminal.line ∧ back.focus = terminal.focus := by
  constructor
  · intro events hevents
    have hhistory := terminal.history_run hevents
    refine ⟨hhistory, ?_⟩
    intro code direction hkey next
    have hnext : next = (terminal.run events).browse direction := by
      dsimp only [next]
      rw [run_concat, handle_browse _ hkey]
    constructor
    · intro hentry
      have hsome : (terminal.run events).history[next.focus]? = some terminal.history[next.focus] := by
        rw [hhistory]
        exact List.getElem?_eq_getElem hentry
      generalize terminal.history[next.focus] = entry at hsome ⊢
      rw [hnext] at hsome ⊢
      rw [line_browse_of_entry _ hsome, (hreach.run events).settings_eq]
      rfl
    · intro hold hback
      obtain ⟨time, hlast, hline⟩ :=
        line_restored hreach hnewest hevents hkey (Nat.ne_of_lt hold) hback
      obtain ⟨up, hup, hkeyup⟩ := hlast.up hevents
      exact ⟨time, up, hlast, hup, hkeyup, hline⟩
  · intro n up down hn hup hdown back
    refine ⟨terminal.line_run_up_down hup hdown hreach hnewest hn, ?_⟩
    have hfocus := terminal.focus_run_up_down hup hdown (Nat.le_of_eq hnewest) n n
    dsimp only [back]
    omega

/-- A draft is left, an entry is edited, the draft is found again and goes on to be typed, and is left
and found again. -/
theorem browsing_restores_draft_twice :
    let terminal := (withSession {} Session.new).run [.submit "1", .submit "22", .key 97]
    let events := [.key 17, .key 98, .key 18, .key 99, .key 17, .key 8]
    terminal.line = [97] ∧ (terminal.run (events ++ [.key 18])).line = [97, 99] := by
  intro terminal events
  have hreach : Reachable {} terminal := (Reachable.start Session.new).run _
  have hcount : terminal.history.length = 2 := by cbv
  have hfocus : terminal.focus = 2 := by cbv
  have hline : terminal.line = [97] := by cbv
  have hold : (terminal.run events).focus = 1 := by cbv
  have hback : (terminal.run (events ++ [.key 18])).focus = 2 := by cbv
  have hfour : (terminal.run (events.take 4)).focus = 2 := by cbv
  have hfive : (terminal.run (events.take 5)).focus = 1 := by cbv
  have hkept : (terminal.run (events.take 4)).line = [97, 99] := by cbv
  have hleaves : LeavesAt terminal events 4 := by
    refine ⟨hfour.trans hcount.symm, ?_⟩
    rw [hcount]
    exact fun hstays => absurd (hfive.symm.trans hstays) (by decide)
  obtain ⟨time, up, hlast, -, -, hrestored⟩ :=
    (((browsing_restores_draft hreach (hfocus.trans hcount.symm)).1 events (by decide)).2 18 .newer
      rfl).2 (by omega) (by omega)
  have htime : time = 4 := by
    have hlt : time < 6 := hlast.lt
    have hge : ¬time < 4 := by
      intro hbefore
      exact hlast.last 4 hbefore (by decide) hleaves
    have hne : time ≠ 5 := by
      intro hlater
      have hleft := hlast.leaves.1
      rw [hlater] at hleft
      omega
    omega
  rw [htime] at hrestored
  exact ⟨hline, hrestored.trans hkept⟩

end Terminal

end ScriptConsole
