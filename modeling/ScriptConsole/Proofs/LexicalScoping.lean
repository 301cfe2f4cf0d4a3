import ScriptConsole.Proofs.KnownScopes

/-!
# Calls do not see the scopes of their callers

Two sessions are compared that agree on some of their scopes only: a `Pairing` says which scope of the
one corresponds to which scope of the other. Closures correspond if they are the same function, made
in corresponding scopes or in scopes that are gone on both sides. A call adds one pair, of the scopes
it makes, and nothing it does reaches beyond the pairs. So if two sessions agree on the outermost
scope, a function defined there does the same in both (`call_same_of_sameBindings`), whatever calls
are under way.
-/

namespace ScriptConsole

namespace Frame

lemma lookup_cons_eq_ite (name other : String) (value : Value) (rest : List (String × Value)) :
    ((name, value) :: rest).lookup other =
      if other = name then some value else rest.lookup other := by
  rw [List.lookup_cons]
  by_cases h : other = name
  · rw [if_pos h, beq_iff_eq.mpr h]
  · rw [if_neg h, beq_eq_false_iff_ne.mpr h]

lemma lookup_bind (name other : String) (value : Value) (bindings : List (String × Value)) :
    (bind name value bindings).lookup other =
      if other = name then some value else bindings.lookup other := by
  induction bindings with
  | nil => exact lookup_cons_eq_ite name other value []
  | cons entry rest ih =>
    obtain ⟨bound, old⟩ := entry
    rw [bind]
    by_cases hbound : bound = name
    · subst hbound
      rw [if_pos rfl, lookup_cons_eq_ite, lookup_cons_eq_ite]
      by_cases h : other = bound
      · rw [if_pos h, if_pos h]
      · rw [if_neg h, if_neg h, if_neg h]
    · rw [if_neg hbound, lookup_cons_eq_ite, lookup_cons_eq_ite, ih]
      by_cases h : other = bound
      · rw [if_pos h, if_neg (h ▸ hbound), if_pos h]
      · rw [if_neg h, if_neg h]

lemma get?_define (frame : Frame) (name other : String) (value : Value) :
    (frame.define name value).get? other =
      if other = name then some value else frame.get? other :=
  lookup_bind name other value frame.bindings

end Frame

namespace Store

lemma frame?_define_self (store : Store) (scope : ScopeId) (name : String) (value : Value) :
    (store.define scope name value).frame? scope =
      (store.frame? scope).map fun frame => frame.define name value := by
  simp only [frame?, define]
  induction store.frames with
  | nil => rfl
  | cons entry entries ih =>
    obtain ⟨id, frame⟩ := entry
    rw [List.map_cons, List.lookup_cons, List.lookup_cons, ih]
    by_cases hid : scope = id
    · simp [hid]
    · have hne : (scope == id) = false := by simpa using hid
      simp [hne]

lemma frame?_push_self (store : Store) (parent : Option ScopeId) :
    (store.push parent).2.frame? store.next = some ⟨[], parent⟩ := by
  rw [frame?, push, List.lookup_cons, beq_self_eq_true]

lemma find?_append_of_ne {before behind : List (ScopeId × Frame)} {scope : ScopeId}
    (h : ∀ entry ∈ before, entry.1 ≠ scope) (name : String) :
    find? (before ++ behind) scope name = find? behind scope name := by
  induction before with
  | nil => rfl
  | cons entry before ih =>
    obtain ⟨hentry, hbefore⟩ := List.forall_mem_cons.mp h
    rw [List.cons_append, find?, if_neg hentry, ih hbefore]

/-- What a scope does not bind is looked up in its parent, which is older. -/
lemma find?_eq_of_frame? {store : Store} {scope : ScopeId} {frame : Frame}
    (hframe : store.frame? scope = some frame)
    (hparent : ∀ parent, frame.parent = some parent → parent < scope) (name : String) :
    find? store.frames scope name =
      match frame.get? name with
      | some value => some value
      | none => frame.parent.bind fun parent => find? store.frames parent name := by
  obtain ⟨before, behind, heq, hbefore⟩ := List.lookup_eq_some_iff.mp hframe
  have hsorted := store.sorted
  rw [heq] at hsorted ⊢
  obtain ⟨-, -, hnewer⟩ := List.pairwise_append.mp hsorted
  have hskip : ∀ entry ∈ before, entry.1 ≠ scope := by
    intro entry hmem
    exact Nat.ne_of_gt (hnewer entry hmem _ List.mem_cons_self)
  rw [find?_append_of_ne hskip, find?, if_pos rfl]
  cases frame.get? name with
  | some value => rfl
  | none =>
    cases hp : frame.parent with
    | none => rfl
    | some parent =>
      have hlt : parent < scope := hparent parent hp
      have hskip' : ∀ entry ∈ before ++ [(scope, frame)], entry.1 ≠ parent := by
        intro entry hmem
        rcases List.mem_append.mp hmem with hmem | hmem
        · have hgt : scope < entry.1 := hnewer entry hmem _ List.mem_cons_self
          exact Nat.ne_of_gt (Nat.lt_trans hlt hgt)
        · rw [List.mem_singleton.mp hmem]
          exact Nat.ne_of_gt hlt
      have hfind : find? ((before ++ [(scope, frame)]) ++ behind) parent name = find? behind parent name :=
        find?_append_of_ne hskip' name
      rw [List.append_assoc, List.singleton_append] at hfind
      exact hfind.symm

end Store

namespace Evaluation

open Value (Linked)

/-- The later session has the names of the earlier one, and scopes that were gone are still gone. -/
def Ages (s t : Session) : Prop :=
  s.store.next ≤ t.store.next ∧
    ∀ scope < s.store.next, s.store.isLive scope = false → t.store.isLive scope = false

/-- Two sessions, and which of their scopes correspond. -/
structure Pairing where
  left : Session
  right : Session
  Pairs : ScopeId → ScopeId → Prop

namespace Pairing

/-- The same function, made in corresponding scopes or in scopes that are gone. -/
structure Closures (w : Pairing) (c d : Closure) : Prop where
  alike : c.Alike d
  left_lt : c.scope < w.left.store.next
  right_lt : d.scope < w.right.store.next
  scopes : w.Pairs c.scope d.scope ∨
    w.left.store.isLive c.scope = false ∧ w.right.store.isLive d.scope = false

/-- Scopes that bind the same names, to corresponding values, inside corresponding parents. -/
structure Frames (w : Pairing) (f g : Frame) : Prop where
  bindings : ∀ name, Option.Rel (Linked w.Closures) (f.get? name) (g.get? name)
  parents : Option.Rel w.Pairs f.parent g.parent

structure Valid (w : Pairing) : Prop where
  known_left : w.left.Known
  known_right : w.right.Known
  depth : w.left.depth = w.right.depth
  oneToOne : ∀ {a b a' b'}, w.Pairs a b → w.Pairs a' b' → (a' = a ↔ b' = b)
  frames : ∀ {a b}, w.Pairs a b → ∃ f g, w.left.store.frame? a = some f ∧
    w.right.store.frame? b = some g ∧ w.Frames f g

/-- The same scopes correspond, and the same signals were raised. -/
structure Later (w u : Pairing) : Prop where
  pairs : u.Pairs = w.Pairs
  left : Ages w.left u.left
  right : Ages w.right u.right
  signals : ∃ raised, u.left.signals = w.left.signals ++ raised ∧
    u.right.signals = w.right.signals ++ raised

variable {w u : Pairing} {a b : ScopeId}

/-! ### Corresponding scopes and closures -/

lemma Closures.later {c d : Closure} (h : w.Closures c d) (hlater : w.Later u) : u.Closures c d where
  alike := h.alike
  left_lt := Nat.lt_of_lt_of_le h.left_lt hlater.left.1
  right_lt := Nat.lt_of_lt_of_le h.right_lt hlater.right.1
  scopes := by
    rw [hlater.pairs]
    refine h.scopes.imp_right fun hgone => ?_
    exact ⟨hlater.left.2 _ h.left_lt hgone.1, hlater.right.2 _ h.right_lt hgone.2⟩

lemma rel_linked_imp {x y : Option Value} (h : Option.Rel (Linked w.Closures) x y)
    (hclosures : ∀ c d, w.Closures c d → u.Closures c d) :
    Option.Rel (Linked u.Closures) x y := by
  cases h with
  | some hvalue => exact .some (hvalue.imp hclosures)
  | none => exact .none

lemma Frames.imp {f g : Frame} (h : w.Frames f g) (hpairs : u.Pairs = w.Pairs)
    (hclosures : ∀ c d, w.Closures c d → u.Closures c d) : u.Frames f g :=
  ⟨fun name => rel_linked_imp (h.bindings name) hclosures, hpairs ▸ h.parents⟩

lemma knownBelow_of_linked {v v' : Value} (h : Linked w.Closures v v') :
    v.KnownBelow w.left.store.next ∧ v'.KnownBelow w.right.store.next := by
  constructor
  · rintro c rfl
    cases h with
    | closure hcd => exact hcd.left_lt
  · rintro d rfl
    cases h with
    | closure hcd => exact hcd.right_lt

namespace Valid

variable (h : w.Valid)

include h

lemma isLive_left (hab : w.Pairs a b) : w.left.store.isLive a = true := by
  obtain ⟨f, g, hf, -, -⟩ := h.frames hab
  rw [Store.isLive_eq_isSome, hf]
  rfl

lemma isLive_right (hab : w.Pairs a b) : w.right.store.isLive b = true := by
  obtain ⟨f, g, -, hg, -⟩ := h.frames hab
  rw [Store.isLive_eq_isSome, hg]
  rfl

lemma lt_next_left (hab : w.Pairs a b) : a < w.left.store.next :=
  Store.lt_next_of_isLive (h.isLive_left hab)

lemma lt_next_right (hab : w.Pairs a b) : b < w.right.store.next :=
  Store.lt_next_of_isLive (h.isLive_right hab)

lemma isLive_eq {c d : Closure} (hcd : w.Closures c d) :
    w.left.store.isLive c.scope = w.right.store.isLive d.scope := by
  obtain hpair | ⟨hleft, hright⟩ := hcd.scopes
  · rw [h.isLive_left hpair, h.isLive_right hpair]
  · rw [hleft, hright]

/-- In corresponding scopes names are found bound to corresponding values. The search goes from scope
to parent, and parents are older. -/
lemma find? (hab : w.Pairs a b) (name : String) :
    Option.Rel (Linked w.Closures) (Store.find? w.left.store.frames a name)
      (Store.find? w.right.store.frames b name) := by
  induction a using Nat.strongRecOn generalizing b with
  | ind a ih =>
    obtain ⟨f, g, hf, hg, hframes⟩ := h.frames hab
    have hleft := h.known_left.parents _ (Store.mem_of_frame? hf)
    have hright := h.known_right.parents _ (Store.mem_of_frame? hg)
    rw [Store.find?_eq_of_frame? hf hleft, Store.find?_eq_of_frame? hg hright]
    have hbinding := hframes.bindings name
    generalize f.get? name = x at hbinding ⊢
    generalize g.get? name = y at hbinding ⊢
    cases hbinding with
    | some hvalue => exact .some hvalue
    | none =>
      have hparents := hframes.parents
      generalize hp : f.parent = p at hparents ⊢
      generalize g.parent = q at hparents ⊢
      cases hparents with
      | some hpair => exact ih _ (hleft _ hp) hpair
      | none => exact .none

lemma get (hab : w.Pairs a b) (name : String) :
    Linked w.Closures (w.left.store.get a name) (w.right.store.get b name) := by
  have hfound := h.find? hab name
  rw [Store.get, Store.get]
  generalize Store.find? w.left.store.frames a name = x at hfound ⊢
  generalize Store.find? w.right.store.frames b name = y at hfound ⊢
  cases hfound with
  | some hvalue => exact hvalue
  | none =>
    dsimp only
    cases Builtin.ofName? name with
    | some f => exact .builtin f
    | none => exact .null

end Valid

/-! ### What one step does to a pairing -/

lemma ages_refl (s : Session) : Ages s s :=
  ⟨Nat.le_refl _, fun _ _ hgone => hgone⟩

lemma Ages.trans {r s t : Session} (hrs : Ages r s) (hst : Ages s t) : Ages r t :=
  ⟨Nat.le_trans hrs.1 hst.1, fun scope hlt hgone =>
    hst.2 scope (Nat.lt_of_lt_of_le hlt hrs.1) (hrs.2 scope hlt hgone)⟩

lemma later_refl (w : Pairing) : w.Later w :=
  ⟨rfl, ages_refl _, ages_refl _, [], (List.append_nil _).symm, (List.append_nil _).symm⟩

lemma Later.trans {v : Pairing} (hwu : w.Later u) (huv : u.Later v) : w.Later v := by
  obtain ⟨raised, hleft, hright⟩ := hwu.signals
  obtain ⟨raised', hleft', hright'⟩ := huv.signals
  refine ⟨huv.pairs.trans hwu.pairs, Ages.trans hwu.left huv.left, Ages.trans hwu.right huv.right,
    raised ++ raised', ?_, ?_⟩
  · rw [hleft', hleft, List.append_assoc]
  · rw [hright', hright, List.append_assoc]

def define (w : Pairing) (a b : ScopeId) (name : String) (v v' : Value) : Pairing where
  left := { w.left with store := w.left.store.define a name v }
  right := { w.right with store := w.right.store.define b name v' }
  Pairs := w.Pairs

lemma later_define (w : Pairing) (a b : ScopeId) (name : String) (v v' : Value) :
    w.Later (w.define a b name v v') := by
  have hages (s : Session) (scope : ScopeId) (value : Value) :
      Ages s { s with store := s.store.define scope name value } :=
    ⟨Nat.le_refl _, fun other _ hgone => by rw [Store.isLive_define, hgone]⟩
  exact ⟨rfl, hages _ _ _, hages _ _ _, (later_refl w).signals⟩

lemma Frames.define {f g : Frame} (h : w.Frames f g) (name : String) {v v' : Value}
    (hv : Linked w.Closures v v') : w.Frames (f.define name v) (g.define name v') := by
  refine ⟨fun other => ?_, h.parents⟩
  rw [Frame.get?_define, Frame.get?_define]
  by_cases hother : other = name
  · rw [if_pos hother, if_pos hother]
    exact .some hv
  · rw [if_neg hother, if_neg hother]
    exact h.bindings other

lemma Valid.define (h : w.Valid) (hab : w.Pairs a b) (name : String) {v v' : Value}
    (hv : Linked w.Closures v v') : (w.define a b name v v').Valid := by
  obtain ⟨hleft, hright⟩ := knownBelow_of_linked hv
  have hlater (c d : Closure) (hcd : w.Closures c d) : (w.define a b name v v').Closures c d :=
    hcd.later (later_define w a b name v v')
  refine ⟨h.known_left.define hleft a name, h.known_right.define hright b name, h.depth, h.oneToOne,
    fun {a' b'} hab' => ?_⟩
  obtain ⟨f, g, hf, hg, hframes⟩ := h.frames hab'
  -- the pairs are one to one, so the left scope is the one written to exactly if the right one is
  by_cases ha : a' = a
  · obtain rfl := (h.oneToOne hab hab').mp ha
    subst ha
    refine ⟨f.define name v, g.define name v', ?_, ?_, (hframes.define name hv).imp rfl hlater⟩
    · exact (Store.frame?_define_self _ _ _ _).trans (by rw [hf, Option.map_some])
    · exact (Store.frame?_define_self _ _ _ _).trans (by rw [hg, Option.map_some])
  · have hb : b' ≠ b := fun hb => ha ((h.oneToOne hab hab').mpr hb)
    refine ⟨f, g, ?_, ?_, hframes.imp rfl hlater⟩
    · exact (Store.frame?_define_of_ne ha name v).trans hf
    · exact (Store.frame?_define_of_ne hb name v').trans hg

def defineAll (w : Pairing) (a b : ScopeId) (names : List String) (vs vs' : List Value) : Pairing where
  left := { w.left with store := w.left.store.defineAll a names vs }
  right := { w.right with store := w.right.store.defineAll b names vs' }
  Pairs := w.Pairs

lemma Valid.defineAll (h : w.Valid) (hab : w.Pairs a b) (names : List String) {vs vs' : List Value}
    (hvs : List.Forall₂ (Linked w.Closures) vs vs') : (w.defineAll a b names vs vs').Valid := by
  induction names generalizing w vs vs' with
  | nil => exact h
  | cons name names ih =>
    cases hvs with
    | nil => exact ih (h.define hab name .null) hab .nil
    | @cons v v' vs vs' hv hvs =>
      refine ih (h.define hab name hv) hab (hvs.imp fun x x' hx => ?_)
      exact hx.imp fun c d hcd => hcd.later (later_define w a b name v v')

def fresh (w : Pairing) : Pairing where
  left := { w.left with store := w.left.store.fresh.2 }
  right := { w.right with store := w.right.store.fresh.2 }
  Pairs := w.Pairs

lemma later_fresh (w : Pairing) : w.Later w.fresh :=
  ⟨rfl, ⟨Nat.le_succ _, fun _ _ hgone => hgone⟩, ⟨Nat.le_succ _, fun _ _ hgone => hgone⟩,
    (later_refl w).signals⟩

lemma Valid.fresh (h : w.Valid) : w.fresh.Valid where
  known_left := h.known_left.fresh
  known_right := h.known_right.fresh
  depth := h.depth
  oneToOne := h.oneToOne
  frames hab := by
    obtain ⟨f, g, hf, hg, hframes⟩ := h.frames hab
    exact ⟨f, g, hf, hg, hframes.imp rfl fun c d hcd => hcd.later (later_fresh w)⟩

def raise (w : Pairing) (signal : Signal) : Pairing where
  left := { w.left with signals := w.left.signals ++ [signal] }
  right := { w.right with signals := w.right.signals ++ [signal] }
  Pairs := w.Pairs

lemma later_raise (w : Pairing) (signal : Signal) : w.Later (w.raise signal) :=
  ⟨rfl, ⟨Nat.le_refl _, fun _ _ hgone => hgone⟩, ⟨Nat.le_refl _, fun _ _ hgone => hgone⟩,
    [signal], rfl, rfl⟩

lemma Valid.raise (h : w.Valid) (signal : Signal) : (w.raise signal).Valid where
  known_left := ⟨h.known_left.closures, h.known_left.parents⟩
  known_right := ⟨h.known_right.closures, h.known_right.parents⟩
  depth := h.depth
  oneToOne := h.oneToOne
  frames hab := by
    obtain ⟨f, g, hf, hg, hframes⟩ := h.frames hab
    exact ⟨f, g, hf, hg, hframes.imp rfl fun c d hcd => hcd.later (later_raise w signal)⟩

/-! ### Calls -/

def pushed (s : Session) (parent : ScopeId) : Session :=
  { s with store := (s.store.push (some parent)).2, depth := s.depth + 1 }

/-- The scopes that a call makes correspond. -/
def push (w : Pairing) (a b : ScopeId) : Pairing where
  left := pushed w.left a
  right := pushed w.right b
  Pairs a' b' := w.Pairs a' b' ∨ a' = w.left.store.next ∧ b' = w.right.store.next

lemma isLive_pushed_of_lt {s : Session} {scope : ScopeId} (hlt : scope < s.store.next)
    (parent : ScopeId) : (pushed s parent).store.isLive scope = s.store.isLive scope := by
  have hne : (s.store.next == scope) = false := beq_eq_false_iff_ne.mpr (Nat.ne_of_gt hlt)
  rw [pushed, Store.isLive_push, hne, Bool.false_or]

lemma Closures.push {c d : Closure} (h : w.Closures c d) (a b : ScopeId) :
    (w.push a b).Closures c d where
  alike := h.alike
  left_lt := Nat.lt_succ_of_lt h.left_lt
  right_lt := Nat.lt_succ_of_lt h.right_lt
  scopes := by
    refine h.scopes.imp .inl fun hgone => ?_
    exact ⟨(isLive_pushed_of_lt h.left_lt a).trans hgone.1,
      (isLive_pushed_of_lt h.right_lt b).trans hgone.2⟩

lemma Valid.push (h : w.Valid) (hab : w.Pairs a b) : (w.push a b).Valid where
  known_left := h.known_left.push (h.lt_next_left hab)
  known_right := h.known_right.push (h.lt_next_right hab)
  depth := congrArg (· + 1) h.depth
  oneToOne {a₁ b₁ a₂ b₂} h₁ h₂ := by
    -- the names of the new scopes are in no old pair
    have hold {a' b' : ScopeId} (hpair : w.Pairs a' b') :
        a' ≠ w.left.store.next ∧ b' ≠ w.right.store.next :=
      ⟨Nat.ne_of_lt (h.lt_next_left hpair), Nat.ne_of_lt (h.lt_next_right hpair)⟩
    rcases h₁ with h₁ | ⟨rfl, rfl⟩ <;> rcases h₂ with h₂ | ⟨rfl, rfl⟩
    · exact h.oneToOne h₁ h₂
    · exact ⟨fun heq => absurd heq.symm (hold h₁).1, fun heq => absurd heq.symm (hold h₁).2⟩
    · exact ⟨fun heq => absurd heq (hold h₂).1, fun heq => absurd heq (hold h₂).2⟩
    · exact ⟨fun _ => rfl, fun _ => rfl⟩
  frames {a' b'} hab' := by
    rcases hab' with hold | ⟨rfl, rfl⟩
    · obtain ⟨f, g, hf, hg, hframes⟩ := h.frames hold
      refine ⟨f, g, ?_, ?_, fun name => ?_, ?_⟩
      · exact (Store.frame?_push_of_ne (Nat.ne_of_lt (h.lt_next_left hold)) _).trans hf
      · exact (Store.frame?_push_of_ne (Nat.ne_of_lt (h.lt_next_right hold)) _).trans hg
      · exact rel_linked_imp (hframes.bindings name) fun c d hcd => hcd.push a b
      · have hparents := hframes.parents
        generalize f.parent = p at hparents ⊢
        generalize g.parent = q at hparents ⊢
        cases hparents with
        | some hpair => exact .some (.inl hpair)
        | none => exact .none
    · exact ⟨_, _, Store.frame?_push_self _ _, Store.frame?_push_self _ _, fun _ => .none,
        .some (.inl hab)⟩

def enter (w : Pairing) (c d : Closure) (args args' : List Value) : Pairing :=
  (w.push c.scope d.scope).defineAll w.left.store.next w.right.store.next c.params args args'

lemma Valid.enter (h : w.Valid) {c d : Closure} (hcd : w.Pairs c.scope d.scope)
    {args args' : List Value} (hargs : List.Forall₂ (Linked w.Closures) args args') :
    (w.enter c d args args').Valid :=
  (h.push hcd).defineAll (.inr ⟨rfl, rfl⟩) c.params
    (hargs.imp fun _ _ hvalue => hvalue.imp fun _ _ hclosures => hclosures.push _ _)

/-- The pairing when a call that started in `w` is left in `u`: its scopes are taken away. -/
def leave (w u : Pairing) : Pairing where
  left := Evaluation.leave w.left.store.next u.left
  right := Evaluation.leave w.right.store.next u.right
  Pairs := w.Pairs

section Leave

variable {c d : Closure} {args args' : List Value} (hlater : (w.enter c d args args').Later u)

include hlater

lemma Later.pairs_iff {a' b' : ScopeId} :
    u.Pairs a' b' ↔ w.Pairs a' b' ∨ a' = w.left.store.next ∧ b' = w.right.store.next := by
  rw [hlater.pairs]
  rfl

lemma Closures.leave {x y : Closure} (h : u.Closures x y) : (w.leave u).Closures x y where
  alike := h.alike
  left_lt := h.left_lt
  right_lt := h.right_lt
  scopes := by
    have hreleased (s : Session) (scope : ScopeId) :
        (Evaluation.leave scope s).store.isLive scope = false := by
      rw [Evaluation.leave, Store.isLive_release, bne_self_eq_false, Bool.false_and]
    have hgone {s : Session} {other : ScopeId} (hother : s.store.isLive other = false)
        (scope : ScopeId) : (Evaluation.leave scope s).store.isLive other = false := by
      rw [Evaluation.leave, Store.isLive_release, hother, Bool.and_false]
    obtain hpair | ⟨hleft, hright⟩ := h.scopes
    · rcases hlater.pairs_iff.mp hpair with hold | ⟨hleft, hright⟩
      · exact .inl hold
      · -- made in the scopes of the call, which go together
        rw [hleft, hright]
        exact .inr ⟨hreleased _ _, hreleased _ _⟩
    · exact .inr ⟨hgone hleft _, hgone hright _⟩

lemma Valid.leave (h : w.Valid) (hu : u.Valid) : (w.leave u).Valid where
  known_left := hu.known_left.leave _
  known_right := hu.known_right.leave _
  depth := congrArg (· - 1) hu.depth
  oneToOne := h.oneToOne
  frames {a' b'} hold := by
    have hleft : a' < w.left.store.next := h.lt_next_left hold
    have hright : b' < w.right.store.next := h.lt_next_right hold
    obtain ⟨f, g, hf, hg, hframes⟩ := hu.frames (hlater.pairs_iff.mpr (.inl hold))
    refine ⟨f, g, ?_, ?_, fun name => ?_, ?_⟩
    · exact (Store.frame?_release_of_ne (Nat.ne_of_lt hleft)).trans hf
    · exact (Store.frame?_release_of_ne (Nat.ne_of_lt hright)).trans hg
    · exact rel_linked_imp (hframes.bindings name) fun x y hxy => hxy.leave hlater
    · -- the parent is older than the scope, so it is not the scope of the call
      have holder := hu.known_left.parents _ (Store.mem_of_frame? hf)
      have hparents := hframes.parents
      generalize hp : f.parent = p at hparents ⊢
      generalize g.parent = q at hparents ⊢
      cases hparents with
      | none => exact .none
      | @some p q hpair =>
        have hlt : p < w.left.store.next := Nat.lt_trans (holder p hp) hleft
        rcases hlater.pairs_iff.mp hpair with hpair | ⟨rfl, -⟩
        · exact .some hpair
        · exact absurd hlt (Nat.lt_irrefl _)

lemma Later.leave : w.Later (w.leave u) := by
  have hages {s t : Session} {parent : ScopeId} {names : List String} {values : List Value}
      (h : Ages (Evaluation.enter parent names values s).2 t) :
      Ages s (Evaluation.leave s.store.next t) := by
    obtain ⟨hnext, hgone⟩ := h
    rw [next_enter] at hnext hgone
    refine ⟨Nat.le_of_succ_le hnext, fun scope hlt hscope => ?_⟩
    have hne : (s.store.next == scope) = false := beq_eq_false_iff_ne.mpr (Nat.ne_of_gt hlt)
    have hentered : (Evaluation.enter parent names values s).2.store.isLive scope = false := by
      rw [isLive_enter, hne, hscope, Bool.or_false]
    rw [Evaluation.leave, Store.isLive_release, hgone scope (Nat.lt_succ_of_lt hlt) hentered,
      Bool.and_false]
  exact ⟨rfl, hages hlater.left, hages hlater.right, hlater.signals⟩

end Leave

end Pairing

def scopingCoupling : Coupling { w : Pairing // w.Valid } where
  left w := w.1.left
  right w := w.1.right
  Later w u := w.1.Later u.1
  Scopes w := w.1.Pairs
  Closures w := w.1.Closures
  refl w := w.1.later_refl
  trans := Pairing.Later.trans
  scopes_later h hab := h.pairs ▸ hab
  closures_later h hcd := hcd.later h
  alike h := h.alike
  depth w := w.2.depth
  isLive {w c d} h := w.2.isLive_eq h
  get {w a b} h name := w.2.get h name
  define {w a b v v'} h hv name :=
    ⟨⟨_, w.2.define h name hv⟩, w.1.later_define a b name v v', rfl, rfl⟩
  make {w a b} h :=
    ⟨⟨_, w.2.fresh⟩, w.1.later_fresh, rfl, rfl, fun name params body =>
      ⟨⟨rfl, rfl, rfl⟩, Nat.lt_succ_of_lt (w.2.lt_next_left h), Nat.lt_succ_of_lt (w.2.lt_next_right h),
        .inl h⟩⟩
  raise w signal := ⟨⟨_, w.2.raise signal⟩, w.1.later_raise signal, rfl, rfl⟩
  call {w c d args args'} hcd hlive hargs := by
    have hpair : w.1.Pairs c.scope d.scope := by
      refine hcd.scopes.resolve_right fun hgone => ?_
      rw [hgone.1] at hlive
      cases hlive
    refine ⟨⟨_, w.2.enter hpair hargs⟩, rfl, ?_, .inr ⟨rfl, rfl⟩, fun u hlater => ?_⟩
    · rw [← hcd.alike.2.1]
      rfl
    · exact ⟨⟨_, w.2.leave hlater u.2⟩, hlater.leave, rfl, rfl, fun x y hxy => hxy.leave hlater⟩

/-- Two computations that started in `s` and in `t` have failed with the same error or succeeded with
the same value, but for where closures in it were made, and they have raised the same signals. -/
inductive SameOutcome (s t : Session) :
    EStateM.Result Error Session Value → EStateM.Result Error Session Value → Prop
  | ok {v v' s' t' raised} (value : Linked Closure.Alike v v')
      (left : s'.signals = s.signals ++ raised) (right : t'.signals = t.signals ++ raised) :
      SameOutcome s t (.ok v s') (.ok v' t')
  | error {e s' t' raised} (left : s'.signals = s.signals ++ raised)
      (right : t'.signals = t.signals ++ raised) : SameOutcome s t (.error e s') (.error e t')

lemma sameOutcome_of_ended {w : { w : Pairing // w.Valid }}
    {r r' : EStateM.Result Error Session Value}
    (h : scopingCoupling.Ended w scopingCoupling.Values r r') :
    SameOutcome w.1.left w.1.right r r' := by
  cases h with
  | ok later hs ht hvalue =>
    obtain ⟨raised, hleft, hright⟩ := later.signals
    subst hs ht
    exact .ok (Linked.imp hvalue fun _ _ hcd => hcd.alike) hleft hright
  | error later hs ht =>
    obtain ⟨raised, hleft, hright⟩ := later.signals
    subst hs ht
    exact .error hleft hright

end Evaluation

namespace Session

open Evaluation
open Value (Linked)

def bound? (s : Session) (name : String) : Option Value :=
  (s.store.frame? globals).bind fun frame => frame.get? name

/-- The same function, in both sessions or in none defined in the outermost scope. -/
def SameDefinition (c d : Closure) : Prop :=
  c.Alike d ∧ (c.scope = globals ↔ d.scope = globals)

/-- The outermost scopes bind the same names to the same values. -/
def SameBindings (s t : Session) : Prop :=
  ∀ name, Option.Rel (Linked SameDefinition) (s.bound? name) (t.bound? name)

/-- The evaluation of some submission comes to this session, where a part of it starts or ends. -/
def Midway (sources : List String) (s : Session) : Prop :=
  ∃ n point, Reaches sources n point ∧ (s = point.session ∨ s = point.after)

lemma Midway.sound {sources : List String} {s : Session} (h : Midway sources s) : s.Sound none := by
  obtain ⟨n, point, hreaches, rfl | rfl⟩ := h
  · exact hreaches.sound.1
  · exact hreaches.sound.2

lemma Sound.exists_frame {scope : Option ScopeId} {s : Session} (h : Sound scope s) :
    ∃ frame, s.store.frame? globals = some frame ∧ frame.parent = none := by
  have hlive := h.live
  rw [Store.isLive_eq_isSome] at hlive
  obtain ⟨frame, hframe⟩ := Option.isSome_iff_exists.mp hlive
  refine ⟨frame, hframe, ?_⟩
  -- a parent would be older than the oldest scope
  cases hparent : frame.parent with
  | none => rfl
  | some parent =>
    have hlt := h.known.parents _ (Store.mem_of_frame? hframe) parent hparent
    exact absurd hlt (Nat.not_lt_zero parent)

def outermost (s t : Session) : Pairing :=
  ⟨s, t, fun a b => a = globals ∧ b = globals⟩

lemma valid_outermost {s t : Session} (hs : s.Sound none) (ht : t.Sound none)
    (hdepth : s.depth = t.depth) (hbindings : SameBindings s t) : (outermost s t).Valid where
  known_left := hs.known
  known_right := ht.known
  depth := hdepth
  oneToOne h h' := by
    rw [h.1, h.2, h'.1, h'.2]
  frames {a b} hab := by
    obtain ⟨rfl, rfl⟩ := hab
    obtain ⟨f, hf, hfparent⟩ := hs.exists_frame
    obtain ⟨g, hg, hgparent⟩ := ht.exists_frame
    refine ⟨f, g, hf, hg, fun name => ?_, ?_⟩
    · have hname := hbindings name
      simp only [bound?, hf, hg, Option.bind_some] at hname
      generalize hx : f.get? name = x at hname ⊢
      generalize hy : g.get? name = y at hname ⊢
      cases hname with
      | none => exact .none
      | some hvalue =>
        cases hvalue with
        | @closure c d hsame =>
          refine .some (.closure ⟨hsame.1, hs.known.lt_of_get? hf hx, ht.known.lt_of_get? hg hy, ?_⟩)
          by_cases hc : c.scope = globals
          · exact .inl ⟨hc, hsame.2.mp hc⟩
          · -- a closure that a call has left behind has expired on both sides
            have hd : d.scope ≠ globals := fun hd => hc (hsame.2.mpr hd)
            exact .inr ⟨hs.settled f name c hf hx hc, ht.settled g name d hg hy hd⟩
        | number n => exact .some (.number n)
        | string s => exact .some (.string s)
        | bool b => exact .some (.bool b)
        | null => exact .some .null
        | builtin f => exact .some (.builtin f)
    · rw [hfparent, hgparent]
      exact .none

/-- Take two sessions, each in the middle of the evaluation of a submission, that bind the same
variables to the same values in their outermost scopes and have equally many calls under way. A
function defined in the outermost scope, called with the same arguments, none of which is a closure,
does the same in both: it fails with the same error or returns the same value, and it raises the same
signals. The scopes of the calls under way may differ in any way. -/
theorem call_same_of_sameBindings {sources sources' : List String} {s t : Session}
    (hs : Midway sources s) (ht : Midway sources' t) (hbindings : SameBindings s t)
    (hdepth : s.depth = t.depth) {c d : Closure} (halike : c.Alike d) (hc : c.scope = globals)
    (hd : d.scope = globals) {args : List Value} (hargs : ∀ v ∈ args, ∀ e, v ≠ .closure e) :
    SameOutcome s t (Evaluation.call (.closure c) args s) (Evaluation.call (.closure d) args t) := by
  have hvalid := valid_outermost hs.sound ht.sound hdepth hbindings
  have hglobals : (outermost s t).Pairs globals globals := ⟨rfl, rfl⟩
  have hclosures : (outermost s t).Closures c d := by
    refine ⟨halike, ?_, ?_, .inl ⟨hc, hd⟩⟩
    · rw [hc]
      exact hvalid.lt_next_left hglobals
    · rw [hd]
      exact hvalid.lt_next_right hglobals
  have hvalues : List.Forall₂ (Linked (outermost s t).Closures) args args :=
    List.forall₂_same.mpr fun v hv =>
      Value.linked_self fun e he => absurd he (hargs v hv e)
  have hrun := Coupling.lockstep_call (C := scopingCoupling) (w := ⟨outermost s t, hvalid⟩)
    (.closure hclosures) hvalues
  exact sameOutcome_of_ended hrun

lemma sameBindings_of_frame?_eq {s t : Session}
    (h : s.store.frame? globals = t.store.frame? globals) : SameBindings s t := by
  intro name
  rw [bound?, bound?, h]
  cases (t.store.frame? globals).bind fun frame => frame.get? name with
  | none => exact .none
  | some value => exact .some (Value.linked_self fun c _ => ⟨⟨rfl, rfl, rfl⟩, .rfl⟩)

/-- The tree of `do x = 1 f() = x g(x) = f() g(n) end`: the caller of `f` has an `x` of its own. -/
def shadowingBlock (n : Number) : Node :=
  .block [.statement (.assignment .assign (.identifier "x") (.literal (.number Number.one))),
    .statement (.assignment .assign (.call "f" []) (.identifier "x")),
    .statement (.assignment .assign (.call "g" [.identifier "x"]) (.call "f" [])),
    .statement (.call "g" [.literal (.number n)])]

def shadowedFunction : Closure :=
  ⟨1, "f", [], .identifier "x", globals⟩

/-- The evaluation of the block comes to the call of `f`, with two variables `x`. -/
lemma visits_shadowedCall (n : Number) :
    ∃ s : Session, Visits ⟨.evaluate globals (shadowingBlock n), new⟩
        ⟨.call (.closure shadowedFunction) [], s⟩ ∧
      s.depth = 1 ∧ s.store.get 3 "x" = .number n ∧
      s.store.frame? globals = some ⟨[("x", .number Number.one), ("f", .closure shadowedFunction),
        ("g", .closure ⟨2, "g", ["x"], .call "f" [], globals⟩)], none⟩ := by
  have hdefined : Visits ⟨.evaluate globals (shadowingBlock n), new⟩ _ :=
    (((Relation.ReflTransGen.single .block).tail (.laterStatements rfl)).tail
      (.laterStatements rfl)).tail (.laterStatements rfl)
  have hcall := ((hdefined.tail .firstStatement).tail .statement).tail (.call rfl rfl)
  have hbody := hcall.tail (.closure (by decide) rfl)
  exact ⟨_, hbody.tail (.call rfl rfl), rfl, rfl, rfl⟩

theorem call_same_shadowed :
    ∃ s t, Midway ["do x = 1 f() = x g(x) = f() g(2) end"] s ∧
      Midway ["do x = 1 f() = x g(x) = f() g(3) end"] t ∧ SameBindings s t ∧ s.depth = t.depth ∧
      s.store.get 3 "x" ≠ t.store.get 3 "x" ∧
      SameOutcome s t (Evaluation.call (.closure shadowedFunction) [] s)
        (Evaluation.call (.closure shadowedFunction) [] t) := by
  obtain ⟨s, hvisits, hdepth, hx, hframe⟩ := visits_shadowedCall ⟨2, by decide, by decide⟩
  obtain ⟨t, hvisits', hdepth', hx', hframe'⟩ := visits_shadowedCall ⟨3, by decide, by decide⟩
  have hs : Midway ["do x = 1 f() = x g(x) = f() g(2) end"] s :=
    ⟨0, _, ⟨_, ⟨_, _, rfl, by cbv, rfl⟩, hvisits⟩, .inl rfl⟩
  have ht : Midway ["do x = 1 f() = x g(x) = f() g(3) end"] t :=
    ⟨0, _, ⟨_, ⟨_, _, rfl, by cbv, rfl⟩, hvisits'⟩, .inl rfl⟩
  have hbindings : SameBindings s t := sameBindings_of_frame?_eq (hframe.trans hframe'.symm)
  have hsame : s.depth = t.depth := hdepth.trans hdepth'.symm
  refine ⟨s, t, hs, ht, hbindings, hsame, ?_, ?_⟩
  · rw [hx, hx']
    decide
  · exact call_same_of_sameBindings hs ht hbindings hsame ⟨rfl, rfl, rfl⟩ rfl rfl (by simp)

end Session

end ScriptConsole
