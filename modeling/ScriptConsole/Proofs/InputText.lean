import Mathlib
import ScriptConsole.Proofs.Decoding
import ScriptConsole.Proofs.LineEditing

/-!
# The text of the input line

The keys type and remove single bytes, and every key that types is ASCII. Characters of more than one
byte come into the input line with an entry of the history, which is cut to the bytes that there is
room for. `Line.Kept` says what a property of lines needs to survive all editing. It is used three
times: for lines of ASCII characters, for lines that are the bytes of a text, and for lines that are
such bytes cut to the room. So the cut is the only thing that can take a character apart, as long as
backspace is not pressed behind a character of more than one byte (`input_is_text_but_for_cut`).
-/

namespace ScriptConsole

open Text

namespace Line

/-- The property is kept by all editing that does not take a character of several bytes apart: it
holds when the line is emptied, when an ASCII character is typed, when the line is cut before an ASCII
character, and when a line is submitted and shown again. -/
structure Kept (maxInput : Nat) (P : Line → Prop) : Prop where
  nil : P []
  push : ∀ line byte, P line → line.length < maxInput → byte.toNat < 0x80 → P (line ++ [byte])
  before : ∀ line byte behind, P (line ++ byte :: behind) → byte.toNat < 0x80 → P line
  again : ∀ line, P line → line.length ≤ maxInput → P (ofText maxInput line.text)

section

variable {maxInput : Nat} {P : Line → Prop} (hP : Kept maxInput P) {line : Line}

include hP

lemma Kept.insert (h : P line) {byte : UInt8} (hbyte : byte.toNat < 0x80) :
    P (line.insert maxInput byte) := by
  unfold Line.insert
  split
  · next hroom => exact hP.push line byte h hroom hbyte
  · exact h

lemma Kept.append_spaces (h : P line) {count : Nat} (hroom : line.length + count ≤ maxInput) :
    P (line ++ List.replicate count space) := by
  induction count with
  | zero => simpa using h
  | succ count ih =>
    rw [List.replicate_succ', ← List.append_assoc]
    apply hP.push
    · exact ih (by omega)
    · rw [List.length_append, List.length_replicate]
      omega
    · decide

lemma Kept.tab (h : P line) (hline : line.length ≤ maxInput) (tabWidth : Nat) :
    P (line.tab maxInput tabWidth) := by
  unfold Line.tab
  exact hP.append_spaces h (by omega)

lemma Kept.deleteWord (h : P line) : P line.deleteWord := by
  obtain ⟨turns, -, hunwinds⟩ := unwinds_deleteWord line
  rcases hunwinds.eq_nil_or with hnil | ⟨word, hword⟩
  · rw [hnil]
    exact hP.nil
  · rw [hword] at h
    exact hP.before _ space word h (by decide)

lemma Kept.backspace (h : P line) (hlast : ∀ byte ∈ line.getLast?, byte.toNat < 0x80) :
    P line.backspace := by
  rcases List.eq_nil_or_concat' line with rfl | ⟨before, byte, rfl⟩
  · exact hP.nil
  · rw [Line.backspace, List.dropLast_concat]
    exact hP.before before byte [] h (hlast byte (by simp))

end

/-! ### Three properties that are kept -/

lemma ofText_encode {maxInput : Nat} {s : String} (h : (Utf8.encode s).length ≤ maxInput) :
    ofText maxInput s = Utf8.encode s :=
  List.take_of_length_le h

lemma encode_append (s t : String) : Utf8.encode (s ++ t) = Utf8.encode s ++ Utf8.encode t := by
  rw [Utf8.encode, String.toList_append, List.flatMap_append]
  rfl

lemma encode_ofList (cs : List Char) :
    Utf8.encode (String.ofList cs) = cs.flatMap String.utf8EncodeChar := by
  rw [Utf8.encode, String.toList_ofList]

lemma encode_singleton {byte : UInt8} (h : byte.toNat < 0x80) :
    Utf8.encode (String.singleton (Char.ofNat byte.toNat)) = [byte] := by
  have hvalid : byte.toNat.isValidChar := .inl (by omega)
  have hcode : (Char.ofNat byte.toNat).toNat = byte.toNat := by
    rw [Char.toNat_ofNat, if_pos hvalid]
  rw [Utf8.encode, String.toList_singleton, List.flatMap_singleton,
    Utf8.encodeChar_of_lt (by omega), hcode, UInt8.ofNat_toNat]

lemma kept_text (maxInput : Nat) : Kept maxInput fun line => ∃ s, line = Utf8.encode s where
  nil := ⟨"", rfl⟩
  push := by
    rintro _ byte ⟨s, rfl⟩ - hbyte
    refine ⟨s ++ String.singleton (Char.ofNat byte.toNat), ?_⟩
    rw [encode_append, encode_singleton hbyte]
  before := by
    rintro line byte behind ⟨s, hs⟩ hbyte
    obtain ⟨earlier, rfl⟩ := Utf8.exists_chars_of_ascii hbyte hs.symm
    exact ⟨String.ofList earlier, (encode_ofList earlier).symm⟩
  again := by
    rintro _ ⟨s, rfl⟩ hroom
    refine ⟨s, ?_⟩
    rw [text, Utf8.lossy_encode, ofText_encode hroom]

lemma kept_cut (maxInput : Nat) : Kept maxInput fun line => ∃ s, line = ofText maxInput s where
  nil := ⟨"", List.take_nil.symm⟩
  push := by
    rintro _ byte ⟨s, rfl⟩ hroom hbyte
    -- there is room behind the line, so nothing has been cut off
    have hshort : (Utf8.encode s).length < maxInput := by
      rw [ofText, List.length_take] at hroom
      omega
    obtain ⟨t, ht⟩ := (kept_text maxInput).push _ byte ⟨s, rfl⟩ hshort hbyte
    have hlength := congrArg List.length ht
    rw [List.length_append, List.length_singleton] at hlength
    refine ⟨t, ?_⟩
    rw [ofText_encode (Nat.le_of_lt hshort), ofText_encode (by omega), ht]
  before := by
    rintro line byte behind ⟨s, hs⟩ hbyte
    have hlength := congrArg List.length hs
    rw [ofText, List.length_append, List.length_take] at hlength
    have hsplit : Utf8.encode s = line ++ byte :: (behind ++ (Utf8.encode s).drop maxInput) := by
      rw [← List.cons_append, ← List.append_assoc, hs, ofText, List.take_append_drop]
    obtain ⟨earlier, rfl⟩ := Utf8.exists_chars_of_ascii hbyte hsplit
    refine ⟨String.ofList earlier, ?_⟩
    rw [ofText_encode, encode_ofList]
    rw [encode_ofList]
    omega
  again := fun line _ _ => ⟨line.text, rfl⟩

lemma exists_text_of_ascii {line : Line} (h : ∀ byte ∈ line, byte.toNat < 0x80) :
    ∃ s, line = Utf8.encode s := by
  induction line using List.reverseRecOn with
  | nil => exact ⟨"", rfl⟩
  | append_singleton line byte ih =>
    rw [List.forall_mem_append] at h
    have hbyte := h.2 byte List.mem_cons_self
    exact (kept_text (line.length + 1)).push line byte (ih h.1) (Nat.lt_succ_self _) hbyte

lemma kept_ascii (maxInput : Nat) : Kept maxInput fun line => ∀ byte ∈ line, byte.toNat < 0x80 where
  nil := fun _ h => absurd h List.not_mem_nil
  push := by
    intro line byte h _ hbyte
    rw [List.forall_mem_append]
    exact ⟨h, by simpa using hbyte⟩
  before := by
    intro line byte behind h _
    exact (List.forall_mem_append.mp h).1
  again := by
    intro line h hroom
    obtain ⟨s, rfl⟩ := exists_text_of_ascii h
    rw [text, Utf8.lossy_encode, ofText_encode hroom]
    exact h

lemma ofText_ascii {s : String} (h : ∀ c ∈ s.toList, c.toNat < 0x80) (maxInput : Nat) :
    ∀ byte ∈ ofText maxInput s, byte.toNat < 0x80 := by
  intro byte hbyte
  obtain ⟨c, hc, hmem⟩ := List.mem_flatMap.mp (List.mem_of_mem_take hbyte)
  have hlt := h c hc
  rw [Utf8.encodeChar_of_lt hlt, List.mem_singleton] at hmem
  rw [hmem, Utf8.toNat_ofNat_of_lt (by omega)]
  exact hlt

/-- What a line shows that has been cut to the room there is. -/
lemma text_of_cut {maxInput : Nat} {line : Line} (h : ∃ s, line = ofText maxInput s) :
    ∃ whole broken, line = Utf8.encode whole ++ broken ∧
      (broken = [] ∧ line.text = whole ∨
        Utf8.IsCut broken ∧ line.length = maxInput ∧ line.text = whole ++ "\uFFFD") := by
  obtain ⟨s, rfl⟩ := h
  obtain ⟨whole, broken, hline, hbroken⟩ :=
    Utf8.exists_whole_of_isPrefix (List.take_prefix maxInput (Utf8.encode s))
  rw [← encode_ofList] at hline
  refine ⟨String.ofList whole, broken, hline, ?_⟩
  rcases hbroken with rfl | hbroken
  · left
    rw [List.append_nil] at hline
    rw [text, ofText, hline, Utf8.lossy_encode]
    exact ⟨rfl, rfl⟩
  · right
    have hdecode : Utf8.decode (ofText maxInput s) = whole.map some ++ [none] := by
      rw [ofText, hline, encode_ofList, Utf8.decode_flatMap_append,
        Utf8.decode_of_isCut hbroken]
    refine ⟨hbroken, ?_, ?_⟩
    · -- a line that is shorter than it may be has not been cut, and then no character is
      by_contra hlength
      have hshort : (Utf8.encode s).length ≤ maxInput := by
        rw [ofText, List.length_take] at hlength
        omega
      rw [ofText_encode hshort, Utf8.decode_encode] at hdecode
      have hnone : none ∈ s.toList.map some := by
        rw [hdecode]
        exact List.mem_append_right _ List.mem_cons_self
      simp at hnone
    · rw [text, Utf8.lossy, hdecode, List.map_append, List.map_map, String.ofList_append]
      change String.ofList (whole.map id) ++ _ = _
      rw [List.map_id]
      rfl

lemma text_backspace {line : Line} {byte : UInt8} (hlast : byte ∈ line.getLast?)
    (hbyte : byte.toNat < 0x80) : line.backspace.text.toList = line.text.toList.dropLast := by
  obtain ⟨before, rfl⟩ := List.getLast?_eq_some_iff.mp hlast
  rw [backspace, List.dropLast_concat, text, text, Utf8.lossy_concat hbyte,
    String.toList_append, String.toList_singleton, List.dropLast_concat]

end Line

namespace Terminal

/-- The property holds of the input line, of the line kept for it, and of every line that an entry of
the history can be shown as. -/
structure LinesAre (P : Line → Prop) (terminal : Terminal) : Prop where
  line : P terminal.line
  draft : P terminal.draft
  history : ∀ entry ∈ terminal.history, P (Line.ofText terminal.settings.maxInput entry)

lemma toNat_lt_of_char {code byte : UInt8} (h : Key.ofCode code = .char byte) : byte.toNat < 0x80 := by
  unfold Key.ofCode at h
  split at h <;> try cases h
  split at h
  · next hbounds =>
    obtain rfl := Key.char.inj h
    have hle := UInt8.le_iff_toNat_le.mp hbounds.2
    exact Nat.lt_of_le_of_lt hle (by decide)
  · cases h

section

variable {P : Line → Prop} {terminal : Terminal} (h : LinesAre P terminal)
  (hbounds : InBounds terminal)

include h hbounds

lemma LinesAre.browse (direction : Direction) : LinesAre P (terminal.browse direction) := by
  rcases browse_cases terminal direction with
    hsame | ⟨focus, draft, line, hbrowse, -, hdraft, hline⟩
  · rw [hsame]
    exact h
  · -- the kept line is never longer than there is room, so it is not cut
    have hkept : P draft ∧ draft.length ≤ terminal.settings.maxInput := by
      rcases hdraft with rfl | rfl
      · exact ⟨h.line, hbounds.line⟩
      · exact ⟨h.draft, hbounds.draft⟩
    rw [hbrowse]
    refine ⟨?_, hkept.1, h.history⟩
    rcases hline with ⟨entry, hentry, rfl⟩ | rfl
    · exact h.history entry hentry
    · change P (draft.take terminal.settings.maxInput)
      rw [List.take_of_length_le hkept.2]
      exact hkept.1

variable (hP : Line.Kept terminal.settings.maxInput P)

include hP

omit hbounds in
lemma LinesAre.submit {text : String} (htext : P (Line.ofText terminal.settings.maxInput text)) :
    LinesAre P (terminal.submit text).terminal := by
  refine ⟨h.line, hP.nil, ?_⟩
  intro entry hentry
  rcases mem_history_submit hentry with hold | ⟨rfl, -⟩
  · exact h.history entry hold
  · exact htext

lemma LinesAre.moves {event : Event} {next : Terminal} (hmoves : Moves terminal event next)
    (hsubmit : ∀ text, event = .submit text → P (Line.ofText terminal.settings.maxInput text))
    (hlast : ∀ code, event = .key code → Key.ofCode code = .backspace →
      ∀ byte ∈ terminal.line.getLast?, byte.toNat < 0x80) :
    LinesAre P next := by
  cases hmoves with
  | submit text => exact h.submit hP (hsubmit text rfl)
  | enter henter =>
    have hcleared : LinesAre P { terminal with line := [] } := ⟨hP.nil, h.draft, h.history⟩
    exact hcleared.submit hP (hP.again _ h.line hbounds.line)
  | tick => exact ⟨h.line, h.draft, h.history⟩
  | connect => exact h
  | @edit code hkey =>
    have hedited {line : Line} (hline : P line) : LinesAre P { terminal with line } :=
      ⟨hline, h.draft, h.history⟩
    cases hcode : Key.ofCode code with
    | up => exact h.browse hbounds .older
    | down => exact h.browse hbounds .newer
    | backspace => exact hedited (hP.backspace h.line (hlast code rfl hcode))
    | tab => exact hedited (hP.tab h.line hbounds.line _)
    | deleteWord => exact hedited (hP.deleteWord h.line)
    | char byte => exact hedited (hP.insert h.line (toNat_lt_of_char hcode))
    | enter | escape | unknown => exact h

end

/-- A property that is kept by editing holds after every run, if it holds of the lines that submitted
texts can be shown as. -/
lemma linesAre_run {settings : Settings} {P : Line → Prop} (hP : Line.Kept settings.maxInput P)
    {events : List Event}
    (hsubmit : ∀ text, .submit text ∈ events → P (Line.ofText settings.maxInput text))
    (hlast : ∀ before code after, events = before ++ .key code :: after →
      Key.ofCode code = .backspace → P ((new settings).run before).line →
      ∀ byte ∈ ((new settings).run before).line.getLast?, byte.toNat < 0x80) :
    LinesAre P ((new settings).run events) := by
  apply run_induction
  · exact ⟨hP.nil, hP.nil, fun _ hentry => absurd hentry List.not_mem_nil⟩
  · intro before event after next hevents hmoves h
    have hsettings : ((new settings).run before).settings = settings := settings_run _ before
    have hkept : Line.Kept ((new settings).run before).settings.maxInput P := by
      rw [hsettings]
      exact hP
    apply h.moves (inBounds_run settings before) hkept hmoves
    · rintro text rfl
      rw [hsettings]
      apply hsubmit
      rw [hevents]
      exact List.mem_append_right _ List.mem_cons_self
    · rintro code rfl hcode
      exact hlast before code after hevents hcode h.line

/-- Backspace is pressed only while the line is empty or ends with an ASCII character. -/
def ErasesAscii (settings : Settings) (events : List Event) : Prop :=
  ∀ before code after, events = before ++ .key code :: after → Key.ofCode code = .backspace →
    ∀ byte ∈ ((new settings).run before).line.getLast?, byte.toNat < 0x80

lemma input_backspace (terminal : Terminal) {code byte : UInt8} (hcode : Key.ofCode code = .backspace)
    (hlast : byte ∈ terminal.line.getLast?) (hbyte : byte.toNat < 0x80) :
    (terminal.handle (.key code)).terminal.input.toList = terminal.input.toList.dropLast := by
  have hinput : (terminal.handle (.key code)).terminal.input = terminal.line.backspace.text := by
    rw [handle_key_edit (by rw [hcode]; decide), hcode]
    rfl
  rw [hinput]
  exact Line.text_backspace hlast hbyte

/-- Let any events follow on a new terminal. If all submitted texts are ASCII, the bytes of the input
line are those of the text it shows, and backspace removes the last character of that text. For other
texts, let backspace be pressed only while the line is empty or ends with an ASCII character. Then the
line holds whole characters, and behind them at most one that is cut short, because an entry of the
history was cut to the room there is; it alone is replaced in the text that is shown. If the room ends
inside of a character for none of the submitted texts, nothing is replaced. Whatever stands before it,
an ASCII character at the end of the line is what backspace removes. -/
theorem input_is_text_but_for_cut (settings : Settings) (events : List Event) :
    let terminal := (new settings).run events
    ((∀ text, .submit text ∈ events → ∀ c ∈ text.toList, c.toNat < 0x80) →
      Utf8.strict? terminal.line = some terminal.input ∧
      ∀ code, Key.ofCode code = .backspace → terminal.line ≠ [] →
        (terminal.handle (.key code)).terminal.input.toList = terminal.input.toList.dropLast) ∧
    (ErasesAscii settings events →
      (∃ whole broken, terminal.line = Utf8.encode whole ++ broken ∧
        (broken = [] ∧ terminal.input = whole ∨
          Utf8.IsCut broken ∧ terminal.line.length = settings.maxInput ∧
            terminal.input = whole ++ "\uFFFD")) ∧
      ((∀ text, .submit text ∈ events → ∃ s, Line.ofText settings.maxInput text = Utf8.encode s) →
        Utf8.strict? terminal.line = some terminal.input)) ∧
    ∀ code, Key.ofCode code = .backspace → ∀ byte ∈ terminal.line.getLast?, byte.toNat < 0x80 →
      (terminal.handle (.key code)).terminal.input.toList = terminal.input.toList.dropLast := by
  intro terminal
  have hstrict (h : ∃ s, terminal.line = Utf8.encode s) :
      Utf8.strict? terminal.line = some terminal.input := by
    obtain ⟨s, hs⟩ := h
    rw [input, Line.text, hs, Utf8.strict?_encode, Utf8.lossy_encode]
  refine ⟨?_, ?_, ?_⟩
  · intro hascii
    have hlines : LinesAre (fun line => ∀ byte ∈ line, byte.toNat < 0x80) terminal := by
      apply linesAre_run (Line.kept_ascii _)
      · intro text htext
        exact Line.ofText_ascii (hascii text htext) _
      · intro before code after _ _ hline byte hbyte
        exact hline byte (List.mem_of_mem_getLast? hbyte)
    refine ⟨hstrict (Line.exists_text_of_ascii hlines.line), ?_⟩
    intro code hcode hne
    have hlast := List.getLast?_eq_some_getLast hne
    exact input_backspace terminal hcode hlast (hlines.line _ (List.getLast_mem hne))
  · intro herases
    constructor
    · apply Line.text_of_cut
      exact (linesAre_run (Line.kept_cut _) (fun text _ => ⟨text, rfl⟩)
        fun before code after hevents hcode _ => herases before code after hevents hcode).line
    · intro hfits
      apply hstrict
      exact (linesAre_run (Line.kept_text _) hfits
        fun before code after hevents hcode _ => herases before code after hevents hcode).line
  · intro code hcode byte hlast hbyte
    exact input_backspace terminal hcode hlast hbyte

/-- A text of several bytes that is shown again is still a text when the space behind it is removed. -/
theorem input_is_text_recalled :
    let events := [.submit "\"é\"", .key 17, .key 32, .key 8]
    Utf8.strict? ((new {}).run events).line = some "\"é\"" := by
  intro events
  have herases : ErasesAscii {} events := by
    intro before code after hevents hcode byte hlast
    -- backspace is the last of the events, and a space stands before it
    have hline : ((new {}).run [.submit "\"é\"", .key 17, .key 32]).line = [34, 195, 169, 34, 32] := by
      cbv
    rcases before with _ | ⟨_, _ | ⟨_, _ | ⟨_, _ | ⟨_, _⟩⟩⟩⟩ <;>
      simp only [events, List.nil_append, List.cons_append, List.cons.injEq, reduceCtorEq, false_and,
        Event.key.injEq] at hevents
    · obtain ⟨-, rfl, -⟩ := hevents
      cases hcode
    · obtain ⟨-, -, rfl, -⟩ := hevents
      cases hcode
    · obtain ⟨rfl, rfl, rfl, -⟩ := hevents
      rw [hline] at hlast
      cases hlast
      decide
    · simp at hevents
  have hfits : ∀ text, .submit text ∈ events →
      ∃ s, Line.ofText (Settings.maxInput {}) text = Utf8.encode s := by
    intro text htext
    obtain rfl : text = "\"é\"" := by simpa [events] using htext
    exact ⟨"\"é\"", by decide⟩
  have hinput : ((new {}).run events).input = "\"é\"" := by
    cbv
  rw [← hinput]
  exact ((input_is_text_but_for_cut {} events).2.1 herases).2 hfits

/-- A character of two bytes is taken apart when the entry that holds it is cut to two bytes, and when
backspace is pressed behind it. -/
theorem characters_taken_apart :
    let shown := [.submit "\"é\"", .key 17]
    Utf8.strict? ((new { maxInput := 2 }).run shown).line = none ∧
      ((new { maxInput := 2 }).run shown).input = "\"\uFFFD" ∧
      ((new {}).run (shown ++ [.key 8])).input = "\"é" ∧
      ((new {}).run (shown ++ [.key 8, .key 8])).input = "\"\uFFFD" := by
  intro shown
  refine ⟨?_, ?_, ?_, ?_⟩
  · cbv
  · cbv
  · cbv
  · cbv

end Terminal

end ScriptConsole
