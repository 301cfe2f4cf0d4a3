import ScriptConsole.Json.Skip
import ScriptConsole.Proofs.JsonNumbers

/-!
# Values in JSON

`ValueText` is the grammar of all values: words, numbers, strings, lists and objects, with blanks
around every part. Whoever passes over a value gets to its end (`ValueText.passed`). The parts of the
grammar that hold of any list and of any object, `Item`, `Member` and `Listing`, are there for the
values that are kept as well.
-/

namespace ScriptConsole.Json

/-- A text with blanks on both sides of it. -/
structure Item where
  before : List Char
  text : List Char
  after : List Char
  blanks_before : Blanks before
  blanks_after : Blanks after

def Item.padded (item : Item) : List Char :=
  item.before ++ (item.text ++ item.after)

def Item.bare (text : String) : Item :=
  ⟨[], text.toList, [], by decide, by decide⟩

/-- A key and a value. -/
structure Member where
  key : Item
  value : Item

/-- The key and the value with a colon between them. -/
def Member.padded (member : Member) : List Char :=
  member.key.padded ++ ':' :: member.value.padded

def behindCommas (parts : List (List Char)) : List Char :=
  parts.flatMap (',' :: ·)

/-- What stands between the brackets of a list or the braces of an object: only blanks, or the parts
with commas between them. -/
inductive Listing : List (List Char) → List Char → Prop
  | empty {blanks : List Char} (h : Blanks blanks) : Listing [] blanks
  | parts (part : List Char) (parts : List (List Char)) :
      Listing (part :: parts) (part ++ behindCommas parts)

/-- The values of JSON. -/
inductive ValueText : List Char → Prop
  | word {word : String} (h : word ∈ ["null", "true", "false"]) : ValueText word.toList
  | number {text : List Char} (h : NumberText text) : ValueText text
  | string {text : List Char} (h : StringText text) : ValueText text
  | list {items : List Item} {inner : List Char} (hitems : ∀ item ∈ items, ValueText item.text)
      (h : Listing (items.map Item.padded) inner) : ValueText ('[' :: (inner ++ [']']))
  | object {members : List Member} {inner : List Char}
      (hkeys : ∀ member ∈ members, StringText member.key.text)
      (hvalues : ∀ member ∈ members, ValueText member.value.text)
      (h : Listing (members.map Member.padded) inner) :
      ValueText ('\x7b' :: (inner ++ ['\x7d']))

/-! ### Parts of lists and objects -/

section

variable {c : Char} {tail blanks rest : List Char}

@[simp]
lemma behindCommas_nil : behindCommas [] = [] := rfl

lemma behindCommas_cons_append (part : List Char) (parts : List (List Char)) (rest : List Char) :
    behindCommas (part :: parts) ++ rest = ',' :: (part ++ (behindCommas parts ++ rest)) := by
  simp [behindCommas]

lemma stops_behindCommas (h : Blanks blanks) (hc : c ∈ [']', '\x7d']) (parts : List (List Char))
    (rest : List Char) : Stops (blanks ++ (behindCommas parts ++ c :: rest)) := by
  cases parts with
  | nil => exact h.stops (List.mem_cons_of_mem ',' hc) rest
  | cons part parts =>
    rw [behindCommas_cons_append]
    exact h.stops List.mem_cons_self _

lemma Item.gives_next (item : Item) (htext : item.text = c :: tail) (hc : isBlank c = false)
    (rest : List Char) : (next (item.padded ++ rest)).Gives c (tail ++ (item.after ++ rest)) := by
  have hpadded : item.padded ++ rest = item.before ++ c :: (tail ++ (item.after ++ rest)) := by
    simp [padded, htext]
  rw [hpadded]
  exact Json.gives_next item.blanks_before hc _

lemma Member.gives_next (member : Member) (htext : member.key.text = c :: tail)
    (hc : isBlank c = false) (rest : List Char) :
    (next (member.padded ++ rest)).Gives c
      (tail ++ (member.key.after ++ ':' :: (member.value.padded ++ rest))) := by
  have hpadded : member.padded ++ rest =
      member.key.padded ++ ':' :: (member.value.padded ++ rest) := by
    simp [padded]
  rw [hpadded]
  exact member.key.gives_next htext hc _

end

/-! ### Passing over a value -/

lemma gives_letters (word rest : List Char) : (letters word (word ++ rest)).Gives () rest := by
  induction word with
  | nil => exact Reading.gives_done () rest
  | cons letter word ih =>
    rw [List.cons_append, letters, if_pos rfl]
    exact ih.behind

lemma skipFrom_eq_skipNumberFrom {c : Char} (h : c = '-' ∨ c.isDigit = true) (cs : List Char) :
    skipFrom c cs = skipNumberFrom c cs := by
  unfold skipFrom
  split
  case h_7 => rw [if_pos h]
  all_goals exact absurd h (by decide)

/-- The value is passed over wherever it may end. -/
def Passed (text : List Char) : Prop :=
  ∃ c tail, text = c :: tail ∧ isBlank c = false ∧ c ≠ ']' ∧
    ∀ rest, Stops rest → (skipFrom c (tail ++ rest)).Gives () rest

lemma passed_word {word : String} (h : word ∈ ["null", "true", "false"]) : Passed word.toList := by
  simp only [List.mem_cons, List.not_mem_nil, or_false] at h
  rcases h with rfl | rfl | rfl
  · exact ⟨'n', ['u', 'l', 'l'], rfl, by decide, by decide, fun rest _ => by
      rw [skipFrom]
      exact gives_letters _ rest⟩
  · exact ⟨'t', ['r', 'u', 'e'], rfl, by decide, by decide, fun rest _ => by
      rw [skipFrom]
      exact gives_letters _ rest⟩
  · exact ⟨'f', ['a', 'l', 's', 'e'], rfl, by decide, by decide, fun rest _ => by
      rw [skipFrom]
      exact gives_letters _ rest⟩

lemma passed_number {text : List Char} (h : NumberText text) : Passed text := by
  obtain ⟨c, tail, rfl, hc, hgives⟩ := h.exists_gives
  refine ⟨c, tail, rfl, isBlank_of_numeric hc, ne_of_numeric hc (by decide), fun rest hrest => ?_⟩
  rw [skipFrom_eq_skipNumberFrom hc]
  exact hgives rest hrest

lemma passed_string {text : List Char} (h : StringText text) : Passed text := by
  obtain ⟨body, rfl, hgives⟩ := h.exists_gives
  refine ⟨'"', body, rfl, by decide, by decide, fun rest _ => ?_⟩
  rw [skipFrom]
  exact (hgives rest).behind

section

variable {items : List Item} {members : List Member} {inner blanks : List Char}

lemma gives_skipMoreElements (hitems : ∀ item ∈ items, Passed item.text) (h : Blanks blanks)
    (rest : List Char) :
    (skipMoreElements (blanks ++ (behindCommas (items.map Item.padded) ++ ']' :: rest))).Gives ()
      rest := by
  induction items generalizing blanks with
  | nil =>
    rw [skipMoreElements]
    exact (gives_next h (by decide) rest).andThen fun shorter => ⟨shorter, rfl⟩
  | cons item items ih =>
    obtain ⟨⟨c, tail, htext, hblank, -, hgives⟩, hitems⟩ := List.forall_mem_cons.mp hitems
    have hstops := stops_behindCommas item.blanks_after List.mem_cons_self
      (items.map Item.padded) rest
    rw [List.map_cons, behindCommas_cons_append, skipMoreElements]
    refine (gives_next h (by decide) _).andThen fun shorter => ?_
    rw [if_neg (by decide), if_pos rfl]
    refine Reading.Gives.widen ((item.gives_next htext hblank _).andThen fun shorter' => ?_) _
    refine Reading.Gives.widen ((hgives _ hstops).andThen fun shorter'' => ?_) _
    exact (ih hitems item.blanks_after).widen _

lemma gives_skipElements (hitems : ∀ item ∈ items, Passed item.text)
    (h : Listing (items.map Item.padded) inner) (rest : List Char) :
    (skipElements (inner ++ ']' :: rest)).Gives () rest := by
  rw [skipElements]
  cases items with
  | nil =>
    cases h with
    | empty hblanks =>
      exact (gives_next hblanks (by decide) rest).andThen fun shorter => ⟨shorter, rfl⟩
  | cons item items =>
    cases h with
    | parts =>
      obtain ⟨⟨c, tail, htext, hblank, hclose, hgives⟩, hitems⟩ := List.forall_mem_cons.mp hitems
      have hstops := stops_behindCommas item.blanks_after List.mem_cons_self
        (items.map Item.padded) rest
      rw [List.append_assoc]
      refine (item.gives_next htext hblank _).andThen fun shorter => ?_
      rw [if_neg hclose]
      refine Reading.Gives.widen ((hgives _ hstops).andThen fun shorter' => ?_) _
      exact (gives_skipMoreElements hitems item.blanks_after rest).widen _

lemma gives_skipMemberFrom {member : Member} (hvalue : Passed member.value.text) {body : List Char}
    (hkey : ∀ rest, (skipText (body ++ rest)).Gives () rest) {rest last : List Char}
    (hstops : Stops (member.value.after ++ rest))
    (hmore : (skipMoreMembers (member.value.after ++ rest)).Gives () last) :
    (skipMemberFrom '"' (body ++ (member.key.after ++ ':' :: (member.value.padded ++ rest)))).Gives
      () last := by
  obtain ⟨c, tail, htext, hblank, -, hgives⟩ := hvalue
  rw [skipMemberFrom, if_pos rfl]
  refine Reading.Gives.behind ((hkey _).andThen fun shorter => ?_)
  refine Reading.Gives.widen ((gives_colon member.key.blanks_after _).andThen fun shorter' => ?_) _
  refine Reading.Gives.widen ((member.value.gives_next htext hblank _).andThen fun shorter'' => ?_) _
  exact ((hgives _ hstops).andThen fun _ => hmore.widen _).widen _

lemma gives_skipMoreMembers (hkeys : ∀ member ∈ members, StringText member.key.text)
    (hvalues : ∀ member ∈ members, Passed member.value.text) (h : Blanks blanks)
    (rest : List Char) :
    (skipMoreMembers
      (blanks ++ (behindCommas (members.map Member.padded) ++ '\x7d' :: rest))).Gives () rest := by
  induction members generalizing blanks with
  | nil =>
    rw [skipMoreMembers]
    exact (gives_next h (by decide) rest).andThen fun shorter => ⟨shorter, rfl⟩
  | cons member members ih =>
    obtain ⟨hkey, hkeys⟩ := List.forall_mem_cons.mp hkeys
    obtain ⟨hvalue, hvalues⟩ := List.forall_mem_cons.mp hvalues
    obtain ⟨body, htext, hgives⟩ := hkey.exists_gives
    have hstops := stops_behindCommas member.value.blanks_after (c := '\x7d') (by decide)
      (members.map Member.padded) rest
    rw [List.map_cons, behindCommas_cons_append, skipMoreMembers]
    refine (gives_next h (by decide) _).andThen fun shorter => ?_
    rw [if_neg (by decide), if_pos rfl]
    refine Reading.Gives.widen ((member.gives_next htext (by decide) _).andThen fun shorter' => ?_) _
    exact (gives_skipMemberFrom hvalue hgives hstops
      (ih hkeys hvalues member.value.blanks_after)).widen _

lemma gives_skipMembers (hkeys : ∀ member ∈ members, StringText member.key.text)
    (hvalues : ∀ member ∈ members, Passed member.value.text)
    (h : Listing (members.map Member.padded) inner) (rest : List Char) :
    (skipMembers (inner ++ '\x7d' :: rest)).Gives () rest := by
  rw [skipMembers]
  cases members with
  | nil =>
    cases h with
    | empty hblanks =>
      exact (gives_next hblanks (by decide) rest).andThen fun shorter => ⟨shorter, rfl⟩
  | cons member members =>
    cases h with
    | parts =>
      obtain ⟨hkey, hkeys⟩ := List.forall_mem_cons.mp hkeys
      obtain ⟨hvalue, hvalues⟩ := List.forall_mem_cons.mp hvalues
      obtain ⟨body, htext, hgives⟩ := hkey.exists_gives
      have hstops := stops_behindCommas member.value.blanks_after (c := '\x7d') (by decide)
        (members.map Member.padded) rest
      rw [List.append_assoc]
      refine (member.gives_next htext (by decide) _).andThen fun shorter => ?_
      rw [if_neg (by decide)]
      exact (gives_skipMemberFrom hvalue hgives hstops
        (gives_skipMoreMembers hkeys hvalues member.value.blanks_after rest)).widen _

end

theorem ValueText.passed {text : List Char} (h : ValueText text) : Passed text := by
  -- the items of a list and the values of an object are passed over by the induction
  induction h with
  | word h => exact passed_word h
  | number h => exact passed_number h
  | string h => exact passed_string h
  | @list items inner _ h hitems =>
    refine ⟨'[', inner ++ [']'], rfl, by decide, by decide, fun rest _ => ?_⟩
    rw [skipFrom, List.append_assoc]
    exact (gives_skipElements hitems h rest).behind
  | @object members inner hkeys _ h hvalues =>
    refine ⟨'\x7b', inner ++ ['\x7d'], rfl, by decide, by decide, fun rest _ => ?_⟩
    rw [skipFrom, List.append_assoc]
    exact (gives_skipMembers hkeys hvalues h rest).behind

lemma gives_skip {item : Item} (h : ValueText item.text) {rest : List Char}
    (hrest : Stops (item.after ++ rest)) :
    (skip (item.padded ++ rest)).Gives () (item.after ++ rest) := by
  obtain ⟨c, tail, htext, hblank, -, hgives⟩ := h.passed
  exact (item.gives_next htext hblank rest).andThen fun _ => (hgives _ hrest).widen _

end ScriptConsole.Json
