import Mathlib.Data.List.Nodup
import Mathlib.Data.List.ReduceOption
import ScriptConsole.Proofs.JsonValues
import ScriptConsole.Terminal.Settings.Reader

/-!
# Documents that give settings

`Document settings` are all documents that are meant to give these settings: an object of fields in any
order among members that are no fields, or a list of the first fields, where what is left out has its
default. Every one of them is read as these settings (`ofJson_eq_of_document`). Reading a field
replaces its value alone (`gives_read`, `Field.copy`), so the values of the fields that are read end up
in the settings in whatever order they come (`copyAll_eq`).
-/

namespace ScriptConsole

namespace Settings

open Json (Item Member Listing Stops Blanks StringForm ValueText behindCommas)

/-- The values that fields have. -/
inductive Entry
  | natural (n : Nat)
  | text (s : String)
  | texts (ss : List String)

/-- The ways to write a value: a number by its digits, a string with any escapes and a list of such
strings. -/
def Entry.Form : Entry → List Char → Prop
  | .natural n, written => written = Nat.toDigits 10 n
  | .text s, written => StringForm s written
  | .texts ss, written => ∃ (items : List Item) (inner : List Char),
      List.Forall₂ (fun s item => StringForm s item.text) ss items ∧
        Listing (items.map Item.padded) inner ∧ written = '[' :: (inner ++ [']'])

def Field.entry (settings : Settings) : Field → Entry
  | .width => .natural settings.width
  | .height => .natural settings.height
  | .maxInput => .natural settings.maxInput
  | .scrollback => .natural settings.scrollback
  | .tabWidth => .natural settings.tabWidth
  | .banner => .texts settings.banner
  | .textColor => .natural settings.textColor.toNat
  | .inputColor => .natural settings.inputColor.toNat
  | .cursorColor => .natural settings.cursorColor.toNat
  | .resultMarker => .text settings.resultMarker
  | .errorMarker => .text settings.errorMarker

/-- The measures take 64 bits at most. -/
structure InRange (settings : Settings) : Prop where
  width : settings.width < Field.measureBound
  height : settings.height < Field.measureBound
  maxInput : settings.maxInput < Field.measureBound
  scrollback : settings.scrollback < Field.measureBound
  tabWidth : settings.tabWidth < Field.measureBound

/-- A member of an object that gives a field its value in these settings, or one that is no field and
has any value. -/
def MemberForm (settings : Settings) : Option Field → Member → Prop
  | some field, member =>
    StringForm field.name member.key.text ∧ (field.entry settings).Form member.value.text
  | none, member =>
    (∃ name, (∀ field, Field.name field ≠ name) ∧ StringForm name member.key.text) ∧
      ValueText member.value.text

/-- The documents that give these settings. The fields of an object come in any order, each of them
once, with members that are no fields between them; those of a list are the first ones in order. Fields
that are left out have their defaults. -/
inductive Document (settings : Settings) : List Char → Prop
  | object {item : Item} {fields : List (Option Field)} {members : List Member} {inner : List Char}
      (hmembers : List.Forall₂ (MemberForm settings) fields members)
      (honce : fields.reduceOption.Nodup)
      (hrest : ∀ field, some field ∉ fields → field.entry settings = field.entry {})
      (hlisting : Listing (members.map Member.padded) inner)
      (htext : item.text = '\x7b' :: (inner ++ ['\x7d'])) :
      Document settings item.padded
  | list {item : Item} {count : Nat} {items : List Item} {inner : List Char}
      (hitems : List.Forall₂ (fun field item => (field.entry settings).Form item.text)
        (Field.all.take count) items)
      (hrest : ∀ field ∈ Field.all.drop count, field.entry settings = field.entry {})
      (hlisting : Listing (items.map Item.padded) inner)
      (htext : item.text = '[' :: (inner ++ [']'])) :
      Document settings item.padded

/-! ### Replacing the values of fields -/

/-- Replaces the value of a field by the one that it has in other settings. -/
def Field.copy (source : Settings) (field : Field) (settings : Settings) : Settings :=
  match field with
  | .width => { settings with width := source.width }
  | .height => { settings with height := source.height }
  | .maxInput => { settings with maxInput := source.maxInput }
  | .scrollback => { settings with scrollback := source.scrollback }
  | .tabWidth => { settings with tabWidth := source.tabWidth }
  | .banner => { settings with banner := source.banner }
  | .textColor => { settings with textColor := source.textColor }
  | .inputColor => { settings with inputColor := source.inputColor }
  | .cursorColor => { settings with cursorColor := source.cursorColor }
  | .resultMarker => { settings with resultMarker := source.resultMarker }
  | .errorMarker => { settings with errorMarker := source.errorMarker }

def copyAll (source : Settings) (fields : List Field) (settings : Settings) : Settings :=
  fields.foldl (fun settings field => field.copy source settings) settings

variable {c settings : Settings}

@[simp]
lemma copyAll_cons (field : Field) (fields : List Field) :
    copyAll c (field :: fields) settings = copyAll c fields (field.copy c settings) := rfl

lemma copyAll_append (first second : List Field) :
    copyAll c (first ++ second) settings = copyAll c second (copyAll c first settings) :=
  List.foldl_append

lemma Field.entry_copy (field other : Field) :
    other.entry (field.copy c settings) =
      if other = field then other.entry c else other.entry settings := by
  cases field <;> cases other <;> rfl

lemma entry_copyAll (fields : List Field) (field : Field) :
    field.entry (copyAll c fields settings) =
      if field ∈ fields then field.entry c else field.entry settings := by
  induction fields generalizing settings with
  | nil => rfl
  | cons first fields ih =>
    rw [copyAll_cons, ih, Field.entry_copy]
    by_cases hfirst : field = first <;> simp [hfirst]

lemma eq_of_entry_eq (h : ∀ field, Field.entry settings field = Field.entry c field) :
    settings = c := by
  have hwidth := h .width
  have hheight := h .height
  have hmaxInput := h .maxInput
  have hscrollback := h .scrollback
  have htabWidth := h .tabWidth
  have hbanner := h .banner
  have htextColor := h .textColor
  have hinputColor := h .inputColor
  have hcursorColor := h .cursorColor
  have hresultMarker := h .resultMarker
  have herrorMarker := h .errorMarker
  cases settings
  cases c
  simp only [Field.entry, Entry.natural.injEq, Entry.text.injEq, Entry.texts.injEq,
    UInt8.toNat_inj] at *
  simp only [*]

/-- Settings are complete when all the fields that differ from them are replaced. -/
lemma copyAll_eq {fields : List Field}
    (h : ∀ field, field ∉ fields → Field.entry c field = Field.entry settings field) :
    copyAll c fields settings = c := by
  refine eq_of_entry_eq fun field => ?_
  rw [entry_copyAll]
  split
  · rfl
  · next hfield => exact (h field hfield).symm

/-! ### Reading a field -/

section

variable {item : Item} {rest written : List Char}

/-- A value starts with a character that is not blank and does not close a list. -/
lemma Entry.Form.exists_cons {entry : Entry} (h : entry.Form written) :
    ∃ first tail, written = first :: tail ∧ Json.isBlank first = false ∧ first ≠ ']' := by
  cases entry with
  | natural n =>
    obtain ⟨first, tail, hcons, hdigit⟩ := Json.exists_toDigits n
    exact ⟨first, tail, h.trans hcons, Json.isBlank_of_numeric (.inr hdigit),
      Json.ne_of_numeric (.inr hdigit) (by decide)⟩
  | text s =>
    obtain ⟨body, hbody, -⟩ := StringForm.exists_gives h
    exact ⟨'"', body, hbody, by decide, by decide⟩
  | texts ss =>
    obtain ⟨items, inner, -, -, hinner⟩ := h
    exact ⟨'[', inner ++ [']'], hinner, by decide, by decide⟩

lemma gives_natural {n bound : Nat} (htext : item.text = Nat.toDigits 10 n) (hn : n < bound)
    (hbound : bound ≤ Json.Numeral.significandBound) (hrest : Stops (item.after ++ rest)) :
    (Json.natural bound (item.padded ++ rest)).Gives n (item.after ++ rest) := by
  obtain ⟨first, tail, hcons, hdigit⟩ := Json.exists_toDigits n
  have hvalue : Json.Numeral.natural? { negative := false, whole := Nat.toDigits 10 n } = some n := by
    simp [Json.Numeral.natural?, Nat.ofDigitChars_toDigits]
  refine (item.gives_next (htext.trans hcons) (Json.isBlank_of_numeric (.inr hdigit)) rest).andThen
    fun _ => ?_
  rw [if_pos (.inr hdigit)]
  refine Json.Reading.Gives.widen ((Json.gives_finiteFrom_toDigits hcons
    (Nat.lt_of_lt_of_le hn hbound) hrest).andThen fun shorter => ?_) _
  simp only [hvalue, hn, if_true]
  exact ⟨shorter, rfl⟩

lemma gives_string {s : String} (h : StringForm s item.text) (rest : List Char) :
    (Json.string (item.padded ++ rest)).Gives s (item.after ++ rest) := by
  obtain ⟨body, hbody, hgives⟩ := h.exists_gives
  exact (item.gives_next hbody (by decide) rest).andThen fun _ => (hgives _).behind.widen _

lemma gives_moreStrings {ss : List String} {items : List Item} {blanks : List Char}
    (h : List.Forall₂ (fun s (item : Item) => StringForm s item.text) ss items)
    (hblanks : Blanks blanks) (rest : List Char) :
    (Json.moreStrings (blanks ++ (behindCommas (items.map Item.padded) ++ ']' :: rest))).Gives ss
      rest := by
  induction h generalizing blanks with
  | nil =>
    rw [Json.moreStrings]
    exact (Json.gives_next hblanks (by decide) rest).andThen fun shorter => ⟨shorter, rfl⟩
  | @cons s item ss items hs _ ih =>
    obtain ⟨body, hbody, hgives⟩ := hs.exists_gives
    rw [List.map_cons, Json.behindCommas_cons_append, Json.moreStrings]
    refine (Json.gives_next hblanks (by decide) _).andThen fun _ => ?_
    rw [if_neg (by decide), if_pos rfl]
    refine Json.Reading.Gives.widen ((item.gives_next hbody (by decide) _).andThen fun _ => ?_) _
    rw [if_neg (by decide)]
    refine Json.Reading.Gives.widen (Json.Reading.Gives.andThen (hgives _).behind fun _ => ?_) _
    exact ((ih item.blanks_after).apply (s :: ·)).widen _

lemma gives_strings {ss : List String} (h : Entry.Form (.texts ss) item.text) (rest : List Char) :
    (Json.strings (item.padded ++ rest)).Gives ss (item.after ++ rest) := by
  obtain ⟨items, inner, hitems, hlisting, hinner⟩ := h
  refine (item.gives_next hinner (by decide) rest).andThen fun _ => ?_
  rw [if_pos rfl]
  refine Json.Reading.Gives.widen ?_ _
  rw [List.append_assoc]
  cases hitems with
  | nil =>
    cases hlisting with
    | empty hblanks =>
      exact (Json.gives_next hblanks (by decide) _).andThen fun shorter => ⟨shorter, rfl⟩
  | @cons s first ss items hs hitems =>
    cases hlisting with
    | parts =>
      obtain ⟨body, hbody, hgives⟩ := hs.exists_gives
      rw [List.append_assoc]
      refine (first.gives_next hbody (by decide) _).andThen fun _ => ?_
      rw [if_neg (by decide)]
      refine Json.Reading.Gives.widen (Json.Reading.Gives.andThen (hgives _).behind fun _ => ?_) _
      exact ((gives_moreStrings hitems first.blanks_after _).apply (s :: ·)).widen _

lemma gives_measure {n : Nat} (htext : item.text = Nat.toDigits 10 n) (hn : n < Field.measureBound)
    (hrest : Stops (item.after ++ rest)) :
    (Field.measure (item.padded ++ rest)).Gives n (item.after ++ rest) :=
  gives_natural htext hn (Nat.le_refl _) hrest

lemma gives_color {color : UInt8} (htext : item.text = Nat.toDigits 10 color.toNat)
    (hrest : Stops (item.after ++ rest)) :
    (Field.color (item.padded ++ rest)).Gives color (item.after ++ rest) := by
  have hnatural := gives_natural htext color.toNat_lt (by decide) hrest
  have hcolor := hnatural.apply Nat.toUInt8
  rwa [Nat.toUInt8_eq, UInt8.ofNat_toNat] at hcolor

/-- Reading the value that a field has in some settings replaces it by this one. -/
lemma gives_read (hc : c.InRange) {field : Field} (h : (field.entry c).Form item.text)
    (hrest : Stops (item.after ++ rest)) :
    (field.read settings (item.padded ++ rest)).Gives (field.copy c settings)
      (item.after ++ rest) := by
  cases field with
  | width => exact (gives_measure h hc.width hrest).apply _
  | height => exact (gives_measure h hc.height hrest).apply _
  | maxInput => exact (gives_measure h hc.maxInput hrest).apply _
  | scrollback => exact (gives_measure h hc.scrollback hrest).apply _
  | tabWidth => exact (gives_measure h hc.tabWidth hrest).apply _
  | banner => exact (gives_strings h rest).apply _
  | textColor => exact (gives_color h hrest).apply _
  | inputColor => exact (gives_color h hrest).apply _
  | cursorColor => exact (gives_color h hrest).apply _
  | resultMarker => exact (gives_string h rest).apply _
  | errorMarker => exact (gives_string h rest).apply _

end

/-! ### Reading an object -/

section

variable {given : List Field} {rest : List Char}

lemma ofName?_eq_none {name : String} (h : ∀ field, Field.name field ≠ name) :
    Field.ofName? name = none :=
  List.find?_eq_none.mpr fun field _ hname => h field (beq_iff_eq.mp hname)

/-- A member replaces the value of its field, which must not have been given, or nothing. -/
lemma MemberForm.exists_gives (given : List Field) (settings : Settings) (hc : c.InRange)
    {field? : Option Field} {member : Member} (h : MemberForm c field? member)
    (hgiven : ∀ field ∈ field?, field ∉ given) :
    ∃ body, member.key.text = '"' :: body ∧ ∀ rest, Stops (member.value.after ++ rest) →
      (readMemberText given settings
        (body ++ (member.key.after ++ ':' :: (member.value.padded ++ rest)))).Gives
          (field?.toList ++ given, copyAll c field?.toList settings)
          (member.value.after ++ rest) := by
  cases field? with
  | some field =>
    obtain ⟨hname, hvalue⟩ := h
    obtain ⟨body, hbody, hgives⟩ := hname.exists_gives
    refine ⟨body, hbody, fun rest hrest => (hgives _).andThen fun _ => ?_⟩
    refine Json.Reading.Gives.widen ?_ _
    rw [readMember, Field.ofName?_name]
    simp only [hgiven field rfl, if_false]
    refine (Json.gives_colon member.key.blanks_after _).andThen fun _ => ?_
    exact ((gives_read hc hvalue hrest).apply _).widen _
  | none =>
    obtain ⟨⟨name, hunknown, hname⟩, hvalue⟩ := h
    obtain ⟨body, hbody, hgives⟩ := hname.exists_gives
    refine ⟨body, hbody, fun rest hrest => (hgives _).andThen fun _ => ?_⟩
    refine Json.Reading.Gives.widen ?_ _
    rw [readMember, ofName?_eq_none hunknown]
    refine (Json.gives_colon member.key.blanks_after _).andThen fun _ => ?_
    exact ((Json.gives_skip hvalue hrest).apply _).widen _

lemma reduceOption_cons (field? : Option Field) (fields : List (Option Field)) :
    (field? :: fields).reduceOption = field?.toList ++ fields.reduceOption := by
  cases field? <;> rfl

lemma gives_readMoreMembers (hc : c.InRange) {fields : List (Option Field)} {members : List Member}
    {blanks : List Char} (h : List.Forall₂ (MemberForm c) fields members)
    (honce : (fields.reduceOption ++ given).Nodup) (hblanks : Blanks blanks) (rest : List Char) :
    (readMoreMembers given settings
      (blanks ++ (behindCommas (members.map Member.padded) ++ '\x7d' :: rest))).Gives
        (copyAll c fields.reduceOption settings) rest := by
  -- no field is both given and still to come, which is what keeps the next one from being refused
  induction h generalizing given settings blanks with
  | nil =>
    rw [readMoreMembers]
    exact (Json.gives_next hblanks (by decide) rest).andThen fun shorter => ⟨shorter, rfl⟩
  | @cons field? member fields members hmember _ ih =>
    rw [reduceOption_cons] at honce ⊢
    have hgiven : ∀ field ∈ field?, field ∉ given := fun field hfield hin =>
      (List.nodup_append.mp honce).2.2 field
        (List.mem_append_left _ (Option.mem_toList.mpr hfield)) field hin rfl
    have honce : (fields.reduceOption ++ (field?.toList ++ given)).Nodup := by
      have hperm : (field?.toList ++ fields.reduceOption).Perm
          (fields.reduceOption ++ field?.toList) := List.perm_append_comm
      rw [← List.append_assoc]
      exact (hperm.append_right given).nodup_iff.mp honce
    obtain ⟨body, hbody, hgives⟩ := hmember.exists_gives given settings hc hgiven
    have hstops := Json.stops_behindCommas member.value.blanks_after (c := '\x7d') (by decide)
      (members.map Member.padded) rest
    rw [List.map_cons, Json.behindCommas_cons_append, readMoreMembers, copyAll_append]
    refine (Json.gives_next hblanks (by decide) _).andThen fun _ => ?_
    rw [if_neg (by decide), if_pos rfl]
    refine Json.Reading.Gives.widen ((member.gives_next hbody (by decide) _).andThen fun _ => ?_) _
    rw [if_pos rfl]
    refine Json.Reading.Gives.widen ((hgives _ hstops).andThen fun _ => ?_) _
    exact (ih honce member.value.blanks_after).widen _

lemma gives_readMembers (hc : c.InRange) {fields : List (Option Field)} {members : List Member}
    {inner : List Char} (h : List.Forall₂ (MemberForm c) fields members)
    (hlisting : Listing (members.map Member.padded) inner) (honce : fields.reduceOption.Nodup)
    (rest : List Char) :
    (readMembers (inner ++ '\x7d' :: rest)).Gives (copyAll c fields.reduceOption {}) rest := by
  rw [readMembers]
  cases h with
  | nil =>
    cases hlisting with
    | empty hblanks =>
      exact (Json.gives_next hblanks (by decide) rest).andThen fun shorter => ⟨shorter, rfl⟩
  | @cons field? member fields members hmember hmembers =>
    cases hlisting with
    | parts =>
      rw [reduceOption_cons] at honce ⊢
      obtain ⟨body, hbody, hgives⟩ :=
        hmember.exists_gives [] {} hc fun _ _ => List.not_mem_nil
      have hstops := Json.stops_behindCommas member.value.blanks_after (c := '\x7d') (by decide)
        (members.map Member.padded) rest
      have honce : (fields.reduceOption ++ (field?.toList ++ [])).Nodup := by
        rw [List.append_nil]
        exact List.perm_append_comm.nodup_iff.mp honce
      rw [List.append_assoc, copyAll_append]
      refine (member.gives_next hbody (by decide) _).andThen fun _ => ?_
      rw [if_neg (by decide), if_pos rfl]
      refine Json.Reading.Gives.widen ((hgives _ hstops).andThen fun _ => ?_) _
      exact (gives_readMoreMembers hc hmembers honce member.value.blanks_after rest).widen _

end

/-! ### Reading a list -/

section

variable {items : List Item} {rest : List Char}

lemma gives_readMoreElements (settings : Settings) (hc : c.InRange) {fields : List Field} (left : List Field)
    {blanks : List Char}
    (h : List.Forall₂ (fun field (item : Item) => (field.entry c).Form item.text) fields items)
    (hblanks : Blanks blanks) (rest : List Char) :
    (readMoreElements settings (fields ++ left)
      (blanks ++ (behindCommas (items.map Item.padded) ++ ']' :: rest))).Gives
        (copyAll c fields settings) rest := by
  induction h generalizing settings blanks with
  | nil =>
    cases left with
    | nil | cons =>
      exact (Json.gives_next hblanks (by decide) rest).andThen fun shorter => ⟨shorter, rfl⟩
  | @cons field item fields items hitem _ ih =>
    obtain ⟨first, tail, htext, hblank, hclose⟩ := hitem.exists_cons
    have hstops := Json.stops_behindCommas item.blanks_after (c := ']') (by decide)
      (items.map Item.padded) rest
    rw [List.map_cons, Json.behindCommas_cons_append, List.cons_append, readMoreElements]
    refine (Json.gives_next hblanks (by decide) _).andThen fun _ => ?_
    rw [if_neg (by decide), if_pos rfl]
    -- the character behind the comma is looked at twice, first for a bracket that closes too early
    obtain ⟨_, hnext⟩ := item.gives_next htext hblank
      (behindCommas (items.map Item.padded) ++ ']' :: rest)
    split
    · next heq =>
      rw [hnext] at heq
      cases heq
      exact absurd rfl hclose
    · refine Json.Reading.Gives.widen ((gives_read hc hitem hstops).andThen fun _ => ?_) _
      exact (ih _ item.blanks_after).widen _

lemma gives_readElements (hc : c.InRange) {count : Nat} {inner : List Char}
    (h : List.Forall₂ (fun field (item : Item) => (field.entry c).Form item.text)
      (Field.all.take count) items)
    (hlisting : Listing (items.map Item.padded) inner) (rest : List Char) :
    (readElements (inner ++ ']' :: rest)).Gives (copyAll c (Field.all.take count) {}) rest := by
  cases count with
  | zero =>
    cases h
    cases hlisting with
    | empty hblanks =>
      obtain ⟨shorter, hnext⟩ := Json.gives_next hblanks (c := ']') (by decide) rest
      exact ⟨shorter, by rw [readElements, hnext]; rfl⟩
  | succ count =>
    have htake : Field.all.take (count + 1) = .width :: (Field.all.drop 1).take count := rfl
    rw [htake] at h ⊢
    cases h with
    | @cons _ item _ items hitem hitems =>
      cases hlisting with
      | parts =>
        obtain ⟨first, tail, htext, hblank, hclose⟩ := hitem.exists_cons
        have hstops := Json.stops_behindCommas item.blanks_after (c := ']') (by decide)
          (items.map Item.padded) rest
        obtain ⟨_, hnext⟩ := item.gives_next htext hblank
          (behindCommas (items.map Item.padded) ++ ']' :: rest)
        have hmore := gives_readMoreElements (Field.copy c .width {}) hc
          ((Field.all.drop 1).drop count) hitems item.blanks_after rest
        rw [List.take_append_drop] at hmore
        rw [List.append_assoc, readElements]
        split
        · next heq =>
          rw [hnext] at heq
          cases heq
          exact absurd rfl hclose
        · next heq =>
          rw [hnext] at heq
          cases heq
        · exact (gives_read hc hitem hstops).andThen fun _ => hmore.widen _

end

/-! ### Reading a document -/

lemma ofJson_of_gives {document : String} {item : Item} {first : Char} {body : List Char}
    (hdocument : document.toList = item.padded) (htext : item.text = first :: body)
    (hblank : Json.isBlank first = false)
    (h : first = '\x7b' ∧ (readMembers (body ++ item.after)).Gives settings item.after ∨
      first = '[' ∧ (readElements (body ++ item.after)).Gives settings item.after) :
    ofJson document = .ok settings := by
  have hstart := item.gives_next htext hblank []
  rw [List.append_nil, List.append_nil, ← hdocument] at hstart
  obtain ⟨_, hstart⟩ := hstart
  have hend := Json.next_blanks item.blanks_after
  rcases h with ⟨rfl, _, hread⟩ | ⟨rfl, _, hread⟩
  · simp [ofJson, hstart, hread, hend, bind, Except.bind, pure, Except.pure]
  · simp [ofJson, hstart, hread, hend, bind, Except.bind, pure, Except.pure]

/-- Every document that gives settings is read as these settings, in whatever order its fields come and
whatever else it holds. -/
theorem ofJson_eq_of_document (c : Settings) (hc : c.InRange) (document : String)
    (h : Document c document.toList) : ofJson document = .ok c := by
  generalize hwritten : document.toList = written at h
  -- either way, the fields that are not read have the defaults that reading starts from
  cases h with
  | @object item fields members inner hmembers honce hrest hlisting htext =>
    have hcopy : copyAll c fields.reduceOption {} = c :=
      copyAll_eq fun field hfield => hrest field (mt List.reduceOption_mem_iff.mpr hfield)
    have hread := gives_readMembers hc hmembers hlisting honce item.after
    rw [hcopy] at hread
    refine ofJson_of_gives hwritten htext (by decide) (.inl ⟨rfl, ?_⟩)
    rwa [List.append_assoc]
  | @list item count items inner hitems hrest hlisting htext =>
    have hcopy : copyAll c (Field.all.take count) {} = c := by
      refine copyAll_eq fun field hfield => hrest field ?_
      have hall := Field.mem_all field
      rw [← List.take_append_drop count Field.all] at hall
      exact (List.mem_append.mp hall).resolve_left hfield
    have hread := gives_readElements hc hitems hlisting item.after
    rw [hcopy] at hread
    refine ofJson_of_gives hwritten htext (by decide) (.inr ⟨rfl, ?_⟩)
    rwa [List.append_assoc]

/-- Fields out of order, escapes in a key and in a text and a member that is no field. -/
lemma document_object :
    Document { width := 80, banner := ["😀"] } (String.toList
      "\x7b\"x\": [\x7b\"width\":-1.5e3\x7d],\n\"banner\" :[\"\\ud83d\\uDE00\"],\"\\u0077idth\":80\x7d ") := by
  have hnumber : ValueText "-1.5e3".toList :=
    .number ⟨['-'], ['1'], ['.', '5'], ['e', '3'], .inr rfl, ⟨⟨by simp, by simp⟩, by simp⟩,
      .some ⟨by simp, by simp⟩, .some (.inl rfl) List.mem_cons_self ⟨by simp, by simp⟩, rfl⟩
  have hkey : Json.StringText "\"width\"".toList := by
    refine ⟨[['w'], ['i'], ['d'], ['t'], ['h']], fun form hform => ?_, rfl⟩
    simp only [List.mem_cons, List.not_mem_nil, or_false] at hform
    rcases hform with rfl | rfl | rfl | rfl | rfl
    all_goals exact .plain (by decide)
  have hinner : ValueText "\x7b\"width\":-1.5e3\x7d".toList :=
    @ValueText.object [⟨.bare "\"width\"", .bare "-1.5e3"⟩] _
      (List.forall_mem_singleton.mpr hkey) (List.forall_mem_singleton.mpr hnumber) (.parts _ [])
  have hunknown : ValueText "[\x7b\"width\":-1.5e3\x7d]".toList :=
    @ValueText.list [.bare "\x7b\"width\":-1.5e3\x7d"] _
      (List.forall_mem_singleton.mpr hinner) (.parts _ [])
  have hwidth : StringForm "width" "\"\\u0077idth\"".toList :=
    ⟨["\\u0077".toList, ['i'], ['d'], ['t'], ['h']], .cons (.code ⟨rfl, [0, 0, 7, 7], by decide, rfl⟩)
      (.cons (.plain (by decide)) (.cons (.plain (by decide)) (.cons (.plain (by decide))
        (.cons (.plain (by decide)) .nil)))), rfl⟩
  have hhigh : Json.IsHexCode ['d', '8', '3', 'd'] (0xD800 + 0x3D) :=
    ⟨rfl, [13, 8, 3, 13], by decide, rfl⟩
  have hlow : Json.IsHexCode ['D', 'E', '0', '0'] (0xDC00 + 0x200) :=
    ⟨rfl, [13, 14, 0, 0], by decide, rfl⟩
  have hbanner : StringForm "😀" "\"\\ud83d\\uDE00\"".toList :=
    ⟨_, .cons (.pair (by decide) (by decide) (by decide) hhigh hlow) .nil, rfl⟩
  have hmembers : List.Forall₂ (MemberForm { width := 80, banner := ["😀"] })
      [none, some .banner, some .width]
      [⟨.bare "\"x\"", ⟨[' '], "[\x7b\"width\":-1.5e3\x7d]".toList, [], by decide, by decide⟩⟩,
        ⟨⟨['\n'], "\"banner\"".toList, [' '], by decide, by decide⟩, .bare "[\"\\ud83d\\uDE00\"]"⟩,
        ⟨.bare "\"\\u0077idth\"", .bare "80"⟩] :=
    .cons ⟨⟨"x", fun field => by cases field <;> decide, Json.stringForm_of_plain (by decide)⟩,
      hunknown⟩
    (.cons ⟨Json.stringForm_of_plain (by decide), [.bare "\"\\ud83d\\uDE00\""], _,
      .cons hbanner .nil, .parts _ [], rfl⟩
    (.cons ⟨hwidth, rfl⟩ .nil))
  have hrest (field : Field) (hfield : some field ∉ [none, some .banner, some .width]) :
      field.entry { width := 80, banner := ["😀"] } = field.entry {} := by
    cases field
    case width | banner => exact absurd (by decide) hfield
    all_goals rfl
  exact @Document.object _ ⟨[], _, [' '], by decide, by decide⟩ _ _ _ hmembers (by decide) hrest
    (.parts _ _) rfl

lemma document_list :
    Document { width := 80, banner := ["😀"] } "[80,20 ,55, 256,4,[ \"😀\"] ]".toList := by
  have hitems : List.Forall₂
      (fun field (item : Item) =>
        (Field.entry { width := 80, banner := ["😀"] } field).Form item.text)
      (Field.all.take 6)
      [.bare "80", ⟨[], "20".toList, [' '], by decide, by decide⟩, .bare "55",
        ⟨[' '], "256".toList, [], by decide, by decide⟩, .bare "4",
        ⟨[], "[ \"😀\"]".toList, [' '], by decide, by decide⟩] :=
    .cons rfl (.cons rfl (.cons rfl (.cons rfl (.cons rfl (.cons
      ⟨[⟨[' '], _, [], by decide, by decide⟩], _,
        .cons (Json.stringForm_of_plain (by decide)) .nil, .parts _ [], rfl⟩ .nil)))))
  have hrest (field : Field) (hfield : field ∈ Field.all.drop 6) :
      field.entry { width := 80, banner := ["😀"] } = field.entry {} := by
    cases field
    case width | height | maxInput | scrollback | tabWidth | banner =>
      exact absurd hfield (by decide)
    all_goals rfl
  exact @Document.list _ (.bare "[80,20 ,55, 256,4,[ \"😀\"] ]") 6 _ _ hitems hrest (.parts _ _) rfl

/-- An object and a list that give the same settings. -/
theorem ofJson_eq_of_document_either :
    let settings : Settings := { width := 80, banner := ["😀"] }
    let object :=
      "\x7b\"x\": [\x7b\"width\":-1.5e3\x7d],\n\"banner\" :[\"\\ud83d\\uDE00\"],\"\\u0077idth\":80\x7d "
    let list := "[80,20 ,55, 256,4,[ \"😀\"] ]"
    settings.InRange ∧ Document settings object.toList ∧ ofJson object = .ok settings ∧
      Document settings list.toList ∧ ofJson list = .ok settings := by
  intro settings object list
  have hrange : settings.InRange := ⟨by decide, by decide, by decide, by decide, by decide⟩
  exact ⟨hrange, document_object, ofJson_eq_of_document settings hrange object document_object,
    document_list, ofJson_eq_of_document settings hrange list document_list⟩

end Settings

end ScriptConsole
