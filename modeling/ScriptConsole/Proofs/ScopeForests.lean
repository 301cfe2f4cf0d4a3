import Mathlib
import ScriptConsole.Proofs.LexicalScoping

/-!
# Lookup in a forest of scopes

Scopes are made one after another, each a root or inside one that is already there, and names are
defined in them at any time in between. A `Forest` is such a course of events. What a lookup finds is
read off it without a store: the nearest scope, counted from the one that is asked, in which the name
was ever defined, and of the definitions there the latest (`get_is_nearest_latest`).
-/

namespace ScriptConsole

/-- How a store with `n` scopes comes about, the last step outermost: a scope is made, as a root or
inside one that is there, or a name is defined in one. The scopes are named from `0` on, in the order
in which they are made. -/
inductive Forest : Nat → Type
  | empty : Forest 0
  | make {n : Nat} (forest : Forest n) (parent : Option (Fin n)) : Forest (n + 1)
  | define {n : Nat} (forest : Forest n) (scope : Fin n) (name : String) (value : Value) : Forest n

namespace Forest

def store : {n : Nat} → Forest n → Store
  | _, empty => .empty
  | _, make forest parent => (forest.store.push (parent.map Fin.val)).2
  | _, define forest scope name value => forest.store.define scope name value

def parent? : {n : Nat} → Forest n → Nat → Option Nat
  | _, empty, _ => none
  | _, @make n forest parent, scope =>
    if scope = n then parent.map Fin.val else forest.parent? scope
  | _, define forest _ _ _, scope => forest.parent? scope

/-- The value of the latest definition of a name in one scope. -/
def latest? : {n : Nat} → Forest n → Nat → String → Option Value
  | _, empty, _, _ => none
  | _, make forest _, scope, name => forest.latest? scope name
  | _, define forest written bound value, scope, name =>
    if scope = written ∧ name = bound then some value else forest.latest? scope name

/-- The scope so many steps up: the scope itself, its parent, the parent of its parent, and so on. -/
def ancestor? {n : Nat} (forest : Forest n) : Nat → Nat → Option Nat
  | 0, scope => some scope
  | distance + 1, scope => (forest.parent? scope).bind (forest.ancestor? distance)

variable {n : Nat} {forest : Forest n} {scope : Nat} {name : String}

lemma next_store (forest : Forest n) : forest.store.next = n := by
  induction forest with
  | empty => rfl
  | make forest parent ih => exact congrArg (· + 1) ih
  | define forest written bound value ih => exact ih

lemma latest?_of_le (forest : Forest n) (h : n ≤ scope) (name : String) :
    forest.latest? scope name = none := by
  induction forest with
  | empty => rfl
  | make forest parent ih => exact ih (by omega)
  | define forest written bound value ih =>
    rw [latest?, if_neg, ih h]
    rintro ⟨hwritten, -⟩
    have hlt := written.isLt
    omega

lemma parent?_lt {parent : Nat} (h : forest.parent? scope = some parent) : parent < scope := by
  induction forest with
  | empty => cases h
  | make forest older ih =>
    rw [parent?] at h
    split at h
    · next hscope =>
      obtain ⟨found, -, hfound⟩ := Option.map_eq_some_iff.mp h
      have hlt := found.isLt
      omega
    · exact ih h
  | define forest written bound value ih => exact ih h

/-- The store holds what the course of events says of each scope. -/
lemma exists_frame (forest : Forest n) (h : scope < n) :
    ∃ frame, forest.store.frame? scope = some frame ∧ frame.parent = forest.parent? scope ∧
      ∀ name, frame.get? name = forest.latest? scope name := by
  induction forest with
  | empty => omega
  | make forest parent ih =>
    have hnext := forest.next_store
    by_cases hscope : scope = forest.store.next
    · refine ⟨⟨[], parent.map Fin.val⟩, ?_, ?_, ?_⟩
      · rw [store, hscope, Store.frame?_push_self]
      · rw [parent?, if_pos (by omega)]
      · intro name
        rw [latest?, latest?_of_le forest (by omega)]
        rfl
    · obtain ⟨frame, hframe, hparent, hget⟩ := ih (by omega)
      refine ⟨frame, ?_, ?_, hget⟩
      · rw [store, Store.frame?_push_of_ne hscope, hframe]
      · rw [parent?, if_neg (by omega), hparent]
  | define forest written bound value ih =>
    obtain ⟨frame, hframe, hparent, hget⟩ := ih h
    by_cases hscope : scope = written
    · refine ⟨frame.define bound value, ?_, hparent, ?_⟩
      · rw [store, ← hscope, Store.frame?_define_self, hframe, Option.map_some]
      · intro name
        rw [Frame.get?_define, hget, latest?]
        simp only [hscope, true_and]
    · refine ⟨frame, ?_, hparent, ?_⟩
      · rw [store, Store.frame?_define_of_ne hscope, hframe]
      · intro name
        rw [hget, latest?, if_neg fun hwritten => hscope hwritten.1]

lemma find?_eq (forest : Forest n) (h : scope < n) (name : String) :
    Store.find? forest.store.frames scope name =
      (forest.latest? scope name).or
        ((forest.parent? scope).bind fun parent =>
          Store.find? forest.store.frames parent name) := by
  obtain ⟨frame, hframe, hparent, hget⟩ := forest.exists_frame h
  rw [Store.find?_eq_of_frame? hframe fun parent hp => parent?_lt (hparent ▸ hp), hparent, hget]
  cases forest.latest? scope name <;> rfl

lemma ancestor?_succ {parent : Nat} (h : forest.parent? scope = some parent) (distance : Nat) :
    forest.ancestor? (distance + 1) scope = forest.ancestor? distance parent := by
  rw [ancestor?, h, Option.bind_some]

/-- The further up a scope stands, the older it is. -/
lemma ancestor?_lt {near far a b : Nat} (ha : forest.ancestor? near scope = some a)
    (hb : forest.ancestor? far scope = some b) (h : near < far) : b < a := by
  induction far generalizing near scope a with
  | zero => omega
  | succ far ih =>
    obtain ⟨parent, hparent, hb⟩ := Option.bind_eq_some_iff.mp hb
    have hlt := parent?_lt hparent
    cases near with
    | zero =>
      obtain rfl : scope = a := Option.some.inj ha
      cases far with
      | zero =>
        obtain rfl : parent = b := Option.some.inj hb
        exact hlt
      | succ far =>
        have hparentlt : b < parent := ih rfl hb (Nat.zero_lt_succ far)
        omega
    | succ near =>
      rw [ancestor?_succ hparent] at ha
      exact ih ha hb (by omega)

lemma find?_of_nearest (h : scope < n) {distance : Nat} {a : Nat} {value : Value}
    (ha : forest.ancestor? distance scope = some a) (hvalue : forest.latest? a name = some value)
    (hnearer : ∀ nearer < distance, ∀ b, forest.ancestor? nearer scope = some b →
      forest.latest? b name = none) :
    Store.find? forest.store.frames scope name = some value := by
  induction distance generalizing scope with
  | zero =>
    obtain rfl : scope = a := Option.some.inj ha
    rw [find?_eq forest h, hvalue, Option.some_or]
  | succ distance ih =>
    obtain ⟨parent, hparent, ha⟩ := Option.bind_eq_some_iff.mp ha
    have hlt := parent?_lt hparent
    have hhere := hnearer 0 (by omega) scope rfl
    rw [find?_eq forest h, hhere, hparent, Option.none_or, Option.bind_some]
    apply ih (by omega) ha
    intro nearer hdistance b hb
    apply hnearer (nearer + 1) (by omega)
    rw [ancestor?_succ hparent, hb]

/-- Two forests of one shape find the same if they agree as far up as a lookup gets. -/
lemma find?_congr {other : Forest n} (hshape : ∀ s, other.parent? s = forest.parent? s)
    (h : scope < n)
    (hagree : ∀ distance a, forest.ancestor? distance scope = some a →
      (∀ nearer < distance, ∀ b, forest.ancestor? nearer scope = some b →
        forest.latest? b name = none) → other.latest? a name = forest.latest? a name) :
    Store.find? other.store.frames scope name = Store.find? forest.store.frames scope name := by
  induction scope using Nat.strong_induction_on with
  | _ scope ih =>
    have hhere := hagree 0 scope rfl (by omega)
    rw [find?_eq other h, find?_eq forest h, hshape, hhere]
    cases hlatest : forest.latest? scope name with
    | some value => rfl
    | none =>
      cases hparent : forest.parent? scope with
      | none => rfl
      | some parent =>
        have hlt := parent?_lt hparent
        apply ih parent hlt (by omega)
        intro distance a ha hnearer
        apply hagree (distance + 1) a
        · rw [ancestor?_succ hparent, ha]
        · intro nearer hdistance b hb
          cases nearer with
          | zero =>
            obtain rfl : scope = b := Option.some.inj hb
            exact hlatest
          | succ nearer =>
            rw [ancestor?_succ hparent] at hb
            exact hnearer nearer (by omega) b hb

lemma find?_eq_none (h : scope < n)
    (hnone : ∀ distance a, forest.ancestor? distance scope = some a →
      forest.latest? a name = none) :
    Store.find? forest.store.frames scope name = none := by
  induction scope using Nat.strong_induction_on with
  | _ scope ih =>
    rw [find?_eq forest h, hnone 0 scope rfl, Option.none_or]
    cases hparent : forest.parent? scope with
    | none => rfl
    | some parent =>
      have hlt := parent?_lt hparent
      apply ih parent hlt (by omega)
      intro distance a ha
      apply hnone (distance + 1)
      rw [ancestor?_succ hparent, ha]

lemma get_of_find?_eq_none {store : Store} (h : Store.find? store.frames scope name = none) :
    (∀ f : Builtin, name = f.name → store.get scope name = .builtin f) ∧
      ((∀ f : Builtin, name ≠ f.name) → store.get scope name = .null) := by
  rw [Store.get, h]
  constructor
  · rintro f rfl
    rw [Builtin.ofName?_name]
  · intro hname
    have hnone : Builtin.ofName? name = none := by
      unfold Builtin.ofName?
      split
      · exact absurd rfl (hname .abs)
      · exact absurd rfl (hname .cls)
      · rfl
    rw [hnone]

/-- A definition changes only what is looked up through the scope it is made in. -/
lemma get_define (forest : Forest n) (h : scope < n) (written : Fin n) (bound : String)
    (value : Value)
    (hunseen : name ≠ bound ∨ (∀ distance, forest.ancestor? distance scope ≠ some written.val) ∨
      ∃ distance nearer b, forest.ancestor? distance scope = some written.val ∧ nearer < distance ∧
        forest.ancestor? nearer scope = some b ∧ forest.latest? b name ≠ none) :
    (forest.define written bound value).store.get scope name = forest.store.get scope name := by
  have hfind : Store.find? (forest.define written bound value).store.frames scope name =
      Store.find? forest.store.frames scope name := by
    refine find?_congr (fun _ => by rw [parent?]) h ?_
    intro distance a ha hnearer
    rw [latest?, if_neg]
    rintro ⟨hwritten, hbound⟩
    rw [hwritten] at ha
    rcases hunseen with hname | hapart | ⟨far, near, b, hfar, hlt, hb, hdefined⟩
    · exact hname hbound
    · exact hapart distance ha
    · -- the nearer definition stands below the scope written to, which is met only once on the way up
      obtain hless | rfl | hmore := Nat.lt_trichotomy distance far
      · exact absurd (ancestor?_lt ha hfar hless) (Nat.lt_irrefl _)
      · exact hdefined (hnearer near hlt b hb)
      · exact absurd (ancestor?_lt hfar ha hmore) (Nat.lt_irrefl _)
  rw [Store.get, Store.get, hfind]

end Forest

/-- What a name is looked up as in any scope of any forest is the latest definition in the nearest
scope, going up, that has one. If there is none, it is the built-in of this name, or null. A definition
leaves every lookup as it is that does not come past the scope it is made in, or is answered before,
and a root in which nothing is defined has the built-ins whatever is defined elsewhere. -/
theorem get_is_nearest_latest {n : Nat} (forest : Forest n) (scope : Fin n) (name : String) :
    (∀ distance a value, forest.ancestor? distance scope = some a →
      forest.latest? a name = some value →
      (∀ nearer < distance, ∀ b, forest.ancestor? nearer scope = some b →
        forest.latest? b name = none) →
      forest.store.get scope name = value) ∧
    ((∀ distance a, forest.ancestor? distance scope = some a → forest.latest? a name = none) →
      (∀ f : Builtin, name = f.name → forest.store.get scope name = .builtin f) ∧
        ((∀ f : Builtin, name ≠ f.name) → forest.store.get scope name = .null)) ∧
    (∀ (written : Fin n) (bound : String) (value : Value),
      (name ≠ bound ∨ (∀ distance, forest.ancestor? distance scope ≠ some written.val) ∨
        ∃ distance nearer b, forest.ancestor? distance scope = some written.val ∧
          nearer < distance ∧ forest.ancestor? nearer scope = some b ∧
          forest.latest? b name ≠ none) →
      (forest.define written bound value).store.get scope name = forest.store.get scope name) ∧
    (forest.parent? scope = none → (∀ other, forest.latest? scope other = none) →
      ∀ f : Builtin, forest.store.get scope f.name = .builtin f) := by
  have hscope := scope.isLt
  refine ⟨?_, ?_, ?_, ?_⟩
  · intro distance a value ha hvalue hnearer
    rw [Store.get, Forest.find?_of_nearest hscope ha hvalue hnearer]
  · intro hnone
    exact Forest.get_of_find?_eq_none (Forest.find?_eq_none hscope hnone)
  · intro written bound value hunseen
    exact forest.get_define hscope written bound value hunseen
  · intro hroot huntouched f
    have hnone : Store.find? forest.store.frames scope f.name = none := by
      rw [Forest.find?_eq forest hscope, huntouched, hroot]
      rfl
    exact (Forest.get_of_find?_eq_none hnone).1 f rfl

/-- A name that is defined late in a root is seen two levels below, until it is defined in between. -/
theorem get_is_nearest_latest_late :
    let tree := Forest.empty.make none |>.make (some 0) |>.make (some 1)
    let late := tree.define 0 "abs" .null
    let shadowed := late.define 1 "abs" (.bool true)
    tree.store.get 2 "abs" = .builtin .abs ∧ late.store.get 2 "abs" = .null ∧
      shadowed.store.get 2 "abs" = .bool true ∧
      (shadowed.define 0 "abs" (.bool false)).store.get 2 "abs" = .bool true := by
  intro tree late shadowed
  have hfirst : tree.store.get 2 "abs" = .builtin .abs := by
    apply ((get_is_nearest_latest tree 2 "abs").2.1 _).1 .abs rfl
    intro distance a _
    rfl
  have hlate : late.store.get 2 "abs" = .null :=
    (get_is_nearest_latest late 2 "abs").1 2 0 .null rfl rfl (by decide)
  have hshadowed : shadowed.store.get 2 "abs" = .bool true :=
    (get_is_nearest_latest shadowed 2 "abs").1 1 1 (.bool true) rfl rfl (by decide)
  refine ⟨hfirst, hlate, hshadowed, ?_⟩
  rw [← hshadowed]
  apply (get_is_nearest_latest shadowed 2 "abs").2.2.1 0 "abs" (.bool false)
  exact .inr (.inr ⟨2, 1, 1, rfl, by decide, rfl, by decide⟩)

end ScriptConsole
