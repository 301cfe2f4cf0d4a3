import Mathlib
import ScriptConsole.Proofs.TerminalRuns
import ScriptConsole.Terminal.Settings.Reader

/-!
# What the scrollback holds

Entries come into the scrollback from the banner and from submissions, and nothing else touches it.
`transcript` is what a scrollback without a bound would hold: a submission that asks for the screen to
be cleared takes away all that was printed before it, and its own entries with it. The scrollback holds
the newest entries of the transcript (`scrollback_holds_newest`). Its bound is kept unless it is zero:
the oldest entry goes before the newest comes in, and then there is none that could go
(`scrollback_bounded_iff_ne_zero`). That a submission loses its own entries has a price: the entry of
an error is lost as well, if the statement asked for the screen to be cleared before it failed
(`error_is_newest_iff_not_cleared`).
-/

namespace ScriptConsole

/-- A text that is submitted to a terminal. -/
structure Submission where
  terminal : Terminal
  text : String

namespace Submission

/-- The entries that submitting the text gives back. -/
def entries (submission : Submission) : List String :=
  (submission.terminal.submit submission.text).printed

/-- Whether there is a signal to clear the screen when the text has been interpreted. -/
def clears (submission : Submission) : Bool :=
  decide (.clearScreen ∈ (submission.terminal.interpret submission.text).2.signals)

end Submission

namespace Terminal

/-- The submission that an event makes: the host submits a text, or the key that enters submits the
input line. -/
def submission? (terminal : Terminal) : Event → Option Submission
  | .submit text => some ⟨terminal, text⟩
  | .key code =>
    if Key.ofCode code = .enter then some ⟨{ terminal with line := [] }, terminal.input⟩ else none
  | .tick | .connect => none

/-- The submissions that events make, in order. -/
def submissions (terminal : Terminal) : List Event → List Submission
  | [] => []
  | event :: events =>
    (terminal.submission? event).toList ++ submissions (terminal.handle event).terminal events

/-- What a scrollback without a bound would hold. -/
def transcript (banner : List String) (submissions : List Submission) : List String :=
  (if submissions.any Submission.clears then [] else banner) ++
    (submissions.rtakeWhile (!·.clears)).flatMap Submission.entries

lemma submissions_concat (terminal : Terminal) (events : List Event) (event : Event) :
    terminal.submissions (events ++ [event]) =
      terminal.submissions events ++ ((terminal.run events).submission? event).toList := by
  induction events generalizing terminal with
  | nil => exact List.append_nil _
  | cons first events ih =>
    rw [List.cons_append, submissions, submissions, ih, List.append_assoc]
    rfl

lemma transcript_concat (banner : List String) (submissions : List Submission)
    (submission : Submission) :
    transcript banner (submissions ++ [submission]) =
      if submission.clears then [] else transcript banner submissions ++ submission.entries := by
  unfold transcript
  rw [List.any_append, List.rtakeWhile_concat]
  cases hclears : submission.clears with
  | true => simp [hclears]
  | false => simp [hclears]

/-- A scrollback that is full loses the entry that is no longer among the newest. -/
lemma pushLine_rtake {limit : Nat} (hlimit : 1 ≤ limit) (entries : List String) (entry : String) :
    pushLine limit (entries.rtake limit) entry = (entries ++ [entry]).rtake limit := by
  obtain ⟨room, rfl⟩ := Nat.exists_eq_add_of_le' hlimit
  rw [List.rtake_concat_succ]
  unfold pushLine List.rtake
  rw [List.length_drop]
  apply congrArg (· ++ [entry])
  by_cases hfull : room + 1 ≤ entries.length
  · rw [if_pos (by omega), List.tail_drop]
    apply congrArg (List.drop · entries)
    omega
  · rw [if_neg (by omega)]
    apply congrArg (List.drop · entries)
    omega

lemma foldl_pushLine_rtake {limit : Nat} (hlimit : 1 ≤ limit) (entries later : List String) :
    later.foldl (pushLine limit) (entries.rtake limit) = (entries ++ later).rtake limit := by
  induction later generalizing entries with
  | nil => rw [List.append_nil, List.foldl_nil]
  | cons entry later ih =>
    rw [List.foldl_cons, pushLine_rtake hlimit, ih, List.append_assoc, List.singleton_append]

lemma lines_submit (terminal : Terminal) (text : String) :
    (terminal.submit text).terminal.lines =
      if .clearScreen ∈ (terminal.interpret text).2.signals then []
      else (terminal.submit text).printed.foldl (pushLine terminal.settings.scrollback)
        terminal.lines := by
  change (if (terminal.interpret text).2.signals.isEmpty then _ else []) = _
  cases (terminal.interpret text).2.signals with
  | nil => rfl
  | cons signal signals =>
    cases signal
    exact (if_pos List.mem_cons_self).symm

/-- One event prints the entries of the submission that it makes, if it makes one. -/
lemma Moves.lines_eq {terminal next : Terminal} {event : Event} (h : Moves terminal event next) :
    next.lines =
      match terminal.submission? event with
      | some submission =>
        if submission.clears then []
        else submission.entries.foldl (pushLine terminal.settings.scrollback) terminal.lines
      | none => terminal.lines := by
  cases h with
  | submit text =>
    rw [lines_submit]
    simp only [submission?, Submission.clears, Submission.entries, decide_eq_true_eq]
  | enter henter =>
    rw [lines_submit]
    simp only [submission?, if_pos henter, Submission.clears, Submission.entries, decide_eq_true_eq]
  | edit hkey =>
    rw [submission?, if_neg hkey]
    exact (Display.edit_kept terminal _).1
  | tick => rfl
  | connect => rfl

/-- A bound of zero lets an entry in before anything is there to go, so it acts as a bound of one. -/
lemma pushLine_eq_max_one (limit : Nat) : pushLine limit = pushLine (max limit 1) := by
  cases limit with
  | zero =>
    funext lines entry
    cases lines <;> rfl
  | succ limit => rw [Nat.max_eq_left (by omega)]

/-- A terminal on a session that may have been used before, with its banner printed. -/
def withSession (settings : Settings) (session : Session) : Terminal :=
  print { settings, session } settings.banner

lemma lines_run_withSession (settings : Settings) (session : Session) (events : List Event) :
    let terminal := withSession settings session
    (terminal.run events).lines =
      (transcript settings.banner (terminal.submissions events)).rtake
        (max settings.scrollback 1) := by
  intro terminal
  have hroom : 1 ≤ max settings.scrollback 1 := Nat.le_max_right _ _
  induction events using List.reverseRecOn with
  | nil =>
    have hbanner := foldl_pushLine_rtake hroom [] settings.banner
    rw [List.rtake_nil, List.nil_append, ← pushLine_eq_max_one] at hbanner
    have htranscript : transcript settings.banner [] = settings.banner := List.append_nil _
    rw [submissions, htranscript]
    exact hbanner
  | append_singleton events event ih =>
    have hscrollback : (terminal.run events).settings.scrollback = settings.scrollback := by
      rw [settings_run]
      rfl
    rw [run_concat, (moves_handle _ event).lines_eq, submissions_concat, hscrollback, ih,
      pushLine_eq_max_one]
    cases (terminal.run events).submission? event with
    | none => rw [Option.toList_none, List.append_nil]
    | some submission =>
      rw [Option.toList_some, transcript_concat]
      dsimp only
      cases submission.clears with
      | true => exact (List.rtake_nil _).symm
      | false => exact foldl_pushLine_rtake hroom _ _

lemma lines_run {settings : Settings} (hroom : 1 ≤ settings.scrollback) (events : List Event) :
    ((new settings).run events).lines =
      (transcript settings.banner ((new settings).submissions events)).rtake
        settings.scrollback := by
  have hlines := lines_run_withSession settings Session.new events
  rwa [Nat.max_eq_left hroom] at hlines

lemma length_lines_run_le (settings : Settings) (session : Session) (events : List Event) :
    ((withSession settings session).run events).lines.length ≤ max settings.scrollback 1 := by
  rw [lines_run_withSession, List.rtake, List.length_drop]
  omega

/-- After any events on a new terminal the scrollback holds the newest entries of the transcript, in
order and as many as it has room for. The transcript is made of the banner and the entries of all
submissions, or, if one of them cleared the screen, of the entries of those after the last that did. -/
theorem scrollback_holds_newest (settings : Settings) (hroom : 1 ≤ settings.scrollback)
    (events : List Event) :
    ((new settings).run events).lines =
        (transcript settings.banner ((new settings).submissions events)).rtake
          settings.scrollback ∧
      ((new settings).run events).lines.length ≤ settings.scrollback := by
  refine ⟨lines_run hroom events, ?_⟩
  rw [lines_run hroom events, List.rtake, List.length_drop]
  omega

/-- A number that was typed after the screen had been cleared loses its own line to a comment. -/
theorem scrollback_holds_newest_cleared :
    let settings : Settings := { scrollback := 2, banner := ["#"] }
    let events := [.submit "1", .submit "cls()", .key 50, .key 10, .submit "# done"]
    ((new settings).run events).lines = ["#═ 2", "# done"] := by
  intro settings events
  have hnewest := (scrollback_holds_newest settings (by decide) events).1
  have htranscript : transcript settings.banner ((new settings).submissions events) =
      ["2", "#═ 2", "# done"] := by
    cbv
  rw [hnewest, htranscript]
  rfl

/-- Whatever the bound, a line without tokens is there once it is submitted. -/
lemma lines_submit_ne_nil {terminal : Terminal} (hpending : terminal.pending = [])
    (hsignals : terminal.session.signals = []) : (terminal.submit "").terminal.lines ≠ [] := by
  have hparse : parse (terminal.source "") = .ok none := by
    rw [source, hpending]
    cbv
  have hinterpret : terminal.interpret "" = (.ok none, terminal.session) := by
    unfold interpret Session.interpret
    rw [hparse]
    rfl
  have hprinted : (terminal.submit "").printed = [""] := by
    change "" :: outcomeEntry terminal.settings (terminal.interpret "").1 = _
    rw [hinterpret]
    rfl
  rw [lines_submit, hinterpret, hsignals, if_neg List.not_mem_nil, hprinted]
  exact List.append_ne_nil_of_right_ne_nil _ (List.cons_ne_nil _ _)

/-- Whatever the settings, the session and the events, the scrollback holds the newest entries of the
transcript, and never more than its bound if that is not zero. With a bound of zero it holds one entry
as soon as something is printed, so this is the one bound that does not hold. -/
theorem scrollback_bounded_iff_ne_zero (settings : Settings) :
    (∀ session events,
      let terminal := withSession settings session
      (terminal.run events).lines =
          (transcript settings.banner (terminal.submissions events)).rtake
            (max settings.scrollback 1) ∧
        (terminal.run events).lines.length ≤ max settings.scrollback 1) ∧
    ((∀ session events,
      ((withSession settings session).run events).lines.length ≤ settings.scrollback) ↔
      settings.scrollback ≠ 0) := by
  refine ⟨fun session events =>
    ⟨lines_run_withSession settings session events, length_lines_run_le settings session events⟩, ?_⟩
  constructor
  · intro hbound hzero
    have hlength := hbound Session.new [.submit ""]
    rw [hzero, Nat.le_zero, List.length_eq_zero_iff] at hlength
    exact lines_submit_ne_nil rfl rfl hlength
  · intro hne session events
    have hlength := length_lines_run_le settings session events
    omega

/-- A bound of zero can be set, and the result of a number that is submitted stays. -/
theorem scrollback_exceeds_zero :
    let settings : Settings := { scrollback := 0 }
    let terminal := (new settings).run [.submit "1"]
    Settings.ofJson "\x7b\"scrollback\": 0\x7d" = .ok settings ∧
      terminal.lines = ["#═ 1"] ∧ ¬terminal.lines.length ≤ settings.scrollback := by
  intro settings terminal
  have hread : Settings.ofJson "\x7b\"scrollback\": 0\x7d" = .ok settings := by
    decide +kernel
  have hlines : terminal.lines = ["#═ 1"] := by
    cbv
  refine ⟨hread, hlines, ?_⟩
  rw [hlines]
  decide

lemma session_edit (terminal : Terminal) (key : Key) :
    (terminal.edit key).session = terminal.session := by
  have hbrowse (direction : Direction) :
      (terminal.browse direction).session = terminal.session := by
    rcases browse_cases terminal direction with hsame | ⟨focus, draft, line, hbrowse, -⟩
    · rw [hsame]
    · rw [hbrowse]
  cases key with
  | up => exact hbrowse .older
  | down => exact hbrowse .newer
  | _ => rfl

/-- No signal is left for the next event. -/
lemma signals_run (settings : Settings) (events : List Event) :
    ((new settings).run events).session.signals = [] := by
  apply run_induction (P := fun terminal => terminal.session.signals = []) rfl
  intro before event after next _ hmoves hsignals
  cases hmoves with
  | submit text => rfl
  | enter henter => rfl
  | edit hkey =>
    rw [session_edit]
    exact hsignals
  | tick => exact hsignals
  | connect => exact hsignals

lemma printed_submit_of_error {terminal : Terminal} {text : String} {error : Error}
    (herror : (terminal.interpret text).1 = .error error) (hfinal : error.isIncomplete = false) :
    (terminal.submit text).printed = [text, terminal.settings.errorMarker ++ error.message] := by
  change text :: outcomeEntry terminal.settings (terminal.interpret text).1 = _
  rw [herror, outcomeEntry, hfinal]
  rfl

/-- Whatever the bound, the newest entry is there. -/
lemma getLast?_foldl_pushLine (limit : Nat) (lines entries : List String) (entry : String) :
    ((entries ++ [entry]).foldl (pushLine limit) lines).getLast? = some entry := by
  rw [List.foldl_concat, pushLine, List.getLast?_concat]

/-- Let interpreting a line fail for good. Then the line and the error are given back as its entries,
and the error is the newest entry of the scrollback, unless the statement itself has asked for the
screen to be cleared, in which case the scrollback is empty. -/
theorem error_is_newest_iff_not_cleared (settings : Settings) (events : List Event) (text : String)
    (error : Error) (herror : (((new settings).run events).interpret text).1 = .error error)
    (hfinal : error.isIncomplete = false) :
    let terminal := (new settings).run events
    let entry := settings.errorMarker ++ error.message
    terminal.session.signals = [] ∧
      (terminal.submit text).printed = [text, entry] ∧
      ((terminal.submit text).terminal.lines.getLast? = some entry ↔
        Signal.clearScreen ∉ (terminal.interpret text).2.signals) ∧
      (Signal.clearScreen ∈ (terminal.interpret text).2.signals →
        (terminal.submit text).terminal.lines = []) := by
  intro terminal entry
  have hmarker : terminal.settings = settings := settings_run (new settings) events
  have hprinted : (terminal.submit text).printed = [text, entry] := by
    rw [printed_submit_of_error herror hfinal, hmarker]
  have hlines := lines_submit terminal text
  rw [hprinted] at hlines
  by_cases hclears : Signal.clearScreen ∈ (terminal.interpret text).2.signals
  · rw [if_pos hclears] at hlines
    rw [hlines]
    exact ⟨signals_run settings events, hprinted, by simp [hclears], fun _ => rfl⟩
  · rw [if_neg hclears] at hlines
    rw [hlines]
    refine ⟨signals_run settings events, hprinted, iff_of_true ?_ hclears, fun h => absurd h hclears⟩
    exact getLast?_foldl_pushLine _ terminal.lines [text] entry

/-- An error in a later line is the newest entry, though the scrollback is cut to two entries. -/
theorem error_is_newest_division :
    let terminal := (new { scrollback := 2 }).run [.submit "x = 1"]
    (terminal.submit "x / 0").terminal.lines.getLast? = some "#! Division by zero" := by
  intro terminal
  have herror : (terminal.interpret "x / 0").1 = .error .divisionByZero := by
    cbv
  have hsignals : (terminal.interpret "x / 0").2.signals = [] := by
    cbv
  exact (error_is_newest_iff_not_cleared { scrollback := 2 } [.submit "x = 1"] "x / 0" .divisionByZero
    herror rfl).2.2.1.mpr (hsignals ▸ List.not_mem_nil)

/-- A statement that clears the screen and then fails: nothing is left in the scrollback that would say
so. -/
theorem error_lost_when_cleared :
    let terminal := new {}
    let text := "do cls() 1 / 0 end"
    (terminal.interpret text).1 = .error .divisionByZero ∧
      (terminal.submit text).terminal.lines = [] := by
  intro terminal text
  have herror : (terminal.interpret text).1 = .error .divisionByZero := by
    cbv
  have hsignals : (terminal.interpret text).2.signals = [.clearScreen] := by
    cbv
  refine ⟨herror, ?_⟩
  rw [lines_submit, hsignals, if_pos List.mem_cons_self]

end Terminal

end ScriptConsole
