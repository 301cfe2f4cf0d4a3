import ScriptConsole.Proofs.Lifetimes
import ScriptConsole.Proofs.Lockstep

/-!
# The scopes that closures know

Wherever an evaluation of a session has come, the closures it holds know scopes whose names have been
given out, and scopes are made after their parents (`Session.Known`). Values reach the outermost scope
only where no call is under way. So a closure bound there was made there, or its scope is gone
(`Session.Settled`), and this stays so while calls are under way.
-/

namespace ScriptConsole

/-- If the value is a closure, its scope was given a name below `next`. -/
def Value.KnownBelow (next : Nat) (value : Value) : Prop :=
  ∀ c, value = .closure c → c.scope < next

lemma Value.KnownBelow.mono {next next' : Nat} {value : Value} (h : value.KnownBelow next)
    (hle : next ≤ next') : value.KnownBelow next' :=
  fun c hc => Nat.lt_of_lt_of_le (h c hc) hle

lemma Value.knownBelow_null (next : Nat) : Value.KnownBelow next .null := by
  intro c hc
  cases hc

namespace Frame

lemma mem_bind {name : String} {value : Value} {bindings : List (String × Value)}
    {binding : String × Value} (h : binding ∈ bind name value bindings) :
    binding = (name, value) ∨ binding ∈ bindings := by
  induction bindings with
  | nil => exact .inl (List.mem_singleton.mp h)
  | cons entry rest ih =>
    obtain ⟨other, old⟩ := entry
    rw [bind] at h
    split at h
    · rcases List.mem_cons.mp h with h | h
      · exact .inl h
      · exact .inr (List.mem_cons_of_mem _ h)
    · rcases List.mem_cons.mp h with h | h
      · exact .inr (h ▸ List.mem_cons_self)
      · exact (ih h).imp_right (List.mem_cons_of_mem _)

lemma mem_of_get? {frame : Frame} {name : String} {value : Value}
    (h : frame.get? name = some value) : (name, value) ∈ frame.bindings := by
  obtain ⟨before, behind, heq, -⟩ := List.lookup_eq_some_iff.mp h
  exact heq ▸ List.mem_append_right _ List.mem_cons_self

end Frame

namespace Store

lemma mem_of_frame? {store : Store} {scope : ScopeId} {frame : Frame}
    (h : store.frame? scope = some frame) : (scope, frame) ∈ store.frames := by
  obtain ⟨before, behind, heq, -⟩ := List.lookup_eq_some_iff.mp h
  exact heq ▸ List.mem_append_right _ List.mem_cons_self

lemma exists_mem_of_find? {frames : List (ScopeId × Frame)} {scope : ScopeId} {name : String}
    {value : Value} (h : find? frames scope name = some value) :
    ∃ entry ∈ frames, (name, value) ∈ entry.2.bindings := by
  induction frames generalizing scope with
  | nil => cases h
  | cons entry older ih =>
    obtain ⟨id, frame⟩ := entry
    have hlater {scope : ScopeId} (h : find? older scope name = some value) :
        ∃ entry ∈ (id, frame) :: older, (name, value) ∈ entry.2.bindings := by
      obtain ⟨entry, hmem, hbound⟩ := ih h
      exact ⟨entry, List.mem_cons_of_mem _ hmem, hbound⟩
    rw [find?] at h
    split at h
    · split at h
      · next found hfound =>
        cases h
        exact ⟨_, List.mem_cons_self, Frame.mem_of_get? hfound⟩
      · obtain ⟨parent, -, h⟩ := Option.bind_eq_some_iff.mp h
        exact hlater h
    · exact hlater h

end Store

namespace Session

/-- Closures know scopes whose names have been given out, and scopes are made after their parents. -/
structure Known (s : Session) : Prop where
  closures : ∀ entry ∈ s.store.frames, ∀ binding ∈ entry.2.bindings,
    binding.2.KnownBelow s.store.next
  parents : ∀ entry ∈ s.store.frames, ∀ parent, entry.2.parent = some parent → parent < entry.1

namespace Known

variable {s : Session}

lemma get (h : s.Known) (scope : ScopeId) (name : String) :
    (s.store.get scope name).KnownBelow s.store.next := by
  rw [Store.get]
  split
  · next value hfound =>
    obtain ⟨entry, hmem, hbound⟩ := Store.exists_mem_of_find? hfound
    exact h.closures entry hmem _ hbound
  · split <;> exact fun c hc => by cases hc

lemma lt_of_get? (h : s.Known) {scope : ScopeId} {frame : Frame} {name : String} {c : Closure}
    (hframe : s.store.frame? scope = some frame) (hget : frame.get? name = some (.closure c)) :
    c.scope < s.store.next := by
  have hmem := Store.mem_of_frame? hframe
  exact h.closures _ hmem _ (Frame.mem_of_get? hget) c rfl

lemma define (h : s.Known) {value : Value} (hvalue : value.KnownBelow s.store.next)
    (scope : ScopeId) (name : String) :
    Known { s with store := s.store.define scope name value } where
  closures entry hmem binding hbinding := by
    obtain ⟨⟨id, frame⟩, hold, rfl⟩ := List.mem_map.mp hmem
    dsimp only at hbinding
    split at hbinding
    · rcases Frame.mem_bind hbinding with rfl | hbinding
      · exact hvalue
      · exact h.closures _ hold _ hbinding
    · exact h.closures _ hold _ hbinding
  parents entry hmem parent hparent := by
    obtain ⟨⟨id, frame⟩, hold, rfl⟩ := List.mem_map.mp hmem
    refine h.parents _ hold parent ?_
    dsimp only at hparent ⊢
    split at hparent <;> exact hparent

lemma defineAll (h : s.Known) (scope : ScopeId) (names : List String) {values : List Value}
    (hvalues : ∀ value ∈ values, value.KnownBelow s.store.next) :
    Known { s with store := s.store.defineAll scope names values } := by
  induction names generalizing s values with
  | nil => exact h
  | cons name names ih =>
    cases values with
    | nil => exact ih (h.define (Value.knownBelow_null _) scope name) (by simp)
    | cons value values =>
      obtain ⟨hvalue, hvalues⟩ := List.forall_mem_cons.mp hvalues
      exact ih (h.define hvalue scope name) hvalues

lemma fresh (h : s.Known) : Known { s with store := s.store.fresh.2 } where
  closures entry hmem binding hbinding :=
    (h.closures entry hmem binding hbinding).mono (Nat.le_succ _)
  parents := h.parents

lemma push (h : s.Known) {parent : ScopeId} (hparent : parent < s.store.next) :
    Known { s with store := (s.store.push (some parent)).2, depth := s.depth + 1 } := by
  refine ⟨fun entry hmem binding hbinding => ?_, fun entry hmem p hp => ?_⟩
  · rcases List.mem_cons.mp hmem with rfl | hmem
    · cases hbinding
    · exact (h.closures entry hmem binding hbinding).mono (Nat.le_succ _)
  · rcases List.mem_cons.mp hmem with rfl | hmem
    · cases hp
      exact hparent
    · exact h.parents entry hmem p hp

lemma enter (h : s.Known) {parent : ScopeId} (hparent : parent < s.store.next) (names : List String)
    {values : List Value} (hvalues : ∀ value ∈ values, value.KnownBelow s.store.next) :
    (Evaluation.enter parent names values s).2.Known :=
  (h.push hparent).defineAll s.store.next names fun value hmem =>
    (hvalues value hmem).mono (Nat.le_succ _)

lemma leave (h : s.Known) (scope : ScopeId) : (Evaluation.leave scope s).Known where
  closures entry hmem := h.closures entry (List.mem_filter.mp hmem).1
  parents entry hmem := h.parents entry (List.mem_filter.mp hmem).1

end Known

end Session

namespace Evaluation

open Session (Known)

def KnownClosures (next : Nat) (c d : Closure) : Prop :=
  c = d ∧ c.scope < next

lemma linked_known_iff {next : Nat} {v v' : Value} :
    Value.Linked (KnownClosures next) v v' ↔ v = v' ∧ v.KnownBelow next := by
  constructor
  · intro h
    cases h with
    | closure h =>
      obtain ⟨rfl, h⟩ := h
      refine ⟨rfl, fun c hc => ?_⟩
      cases hc
      exact h
    | _ => exact ⟨rfl, fun c hc => by cases hc⟩
  · rintro ⟨rfl, h⟩
    exact Value.linked_self fun c hc => ⟨rfl, h c hc⟩

lemma forall₂_known_iff {next : Nat} {vs vs' : List Value} :
    List.Forall₂ (Value.Linked (KnownClosures next)) vs vs' ↔
      vs = vs' ∧ ∀ v ∈ vs, v.KnownBelow next := by
  constructor
  · intro h
    induction h with
    | nil => simp
    | cons hv _ ih =>
      obtain ⟨rfl, hknown⟩ := linked_known_iff.mp hv
      obtain ⟨rfl, hvs⟩ := ih
      exact ⟨rfl, List.forall_mem_cons.mpr ⟨hknown, hvs⟩⟩
  · rintro ⟨rfl, h⟩
    induction vs with
    | nil => exact .nil
    | cons v vs ih =>
      obtain ⟨hv, hvs⟩ := List.forall_mem_cons.mp h
      exact .cons (linked_known_iff.mpr ⟨rfl, hv⟩) (ih hvs)

/-- A session that is known corresponds to itself, with the closures in it. -/
def knownCoupling : Coupling { s : Session // s.Known } where
  left w := w.1
  right w := w.1
  Later u w := u.1.store.next ≤ w.1.store.next
  Scopes w a b := a = b ∧ a < w.1.store.next
  Closures w := KnownClosures w.1.store.next
  refl _ := Nat.le_refl _
  trans := Nat.le_trans
  scopes_later h hab := ⟨hab.1, Nat.lt_of_lt_of_le hab.2 h⟩
  closures_later h hcd := ⟨hcd.1, Nat.lt_of_lt_of_le hcd.2 h⟩
  alike h := by
    rw [h.1]
    exact ⟨rfl, rfl, rfl⟩
  depth _ := rfl
  isLive h := by rw [h.1]
  get {w a b} h name := by
    rw [← h.1]
    exact linked_known_iff.mpr ⟨rfl, w.2.get a name⟩
  define {w a b v v'} h hv name := by
    obtain ⟨rfl, -⟩ := h
    obtain ⟨rfl, hknown⟩ := linked_known_iff.mp hv
    exact ⟨⟨_, w.2.define hknown a name⟩, Nat.le_refl _, rfl, rfl⟩
  make {w a b} h := by
    obtain ⟨rfl, ha⟩ := h
    exact ⟨⟨_, w.2.fresh⟩, Nat.le_succ _, rfl, rfl, fun _ _ _ => ⟨rfl, Nat.lt_succ_of_lt ha⟩⟩
  raise w signal :=
    ⟨⟨{ w.1 with signals := w.1.signals ++ [signal] }, ⟨w.2.closures, w.2.parents⟩⟩, Nat.le_refl _,
      rfl, rfl⟩
  call {w c d args args'} hc hlive hargs := by
    obtain ⟨rfl, hscope⟩ := hc
    obtain ⟨rfl, hknown⟩ := forall₂_known_iff.mp hargs
    refine ⟨⟨_, w.2.enter hscope c.params hknown⟩, rfl, rfl, ⟨rfl, ?_⟩, fun u hu => ?_⟩
    · rw [next_enter]
      exact Nat.lt_succ_self _
    · rw [next_enter] at hu
      exact ⟨⟨_, u.2.leave w.1.store.next⟩, Nat.le_of_succ_le hu, rfl, rfl, fun _ _ h => h⟩

/-- A computation has left a known session and a known value, if any. -/
def EndsKnown {α : Type} (known : Nat → α → Prop) : EStateM.Result Error Session α → Prop
  | .ok value t => t.Known ∧ known t.store.next value
  | .error _ t => t.Known

section

variable {α : Type} {known : Nat → α → Prop} {x : Eval α} {s : Session}

lemma endsKnown_of_lockstep {hs : s.Known} {P : { s : Session // s.Known } → α → α → Prop}
    (h : knownCoupling.Lockstep ⟨s, hs⟩ P x x) (hP : ∀ w a b, P w a b → known w.1.store.next a) :
    EndsKnown known (x s) := by
  have hended : knownCoupling.Ended ⟨s, hs⟩ P (x s) (x s) := h
  generalize x s = r at hended ⊢
  cases r with
  | ok value t =>
    cases hended with
    | @ok w _ _ _ _ _ hleft _ hvalue =>
      subst hleft
      exact ⟨w.2, hP w _ _ hvalue⟩
  | error error t =>
    cases hended with
    | @error w _ _ _ _ hleft _ _ =>
      subst hleft
      exact w.2

lemma EndsKnown.known_after (h : EndsKnown known (x s)) : (after x s).Known := by
  unfold after
  cases hresult : x s with
  | ok value t =>
    rw [hresult] at h
    exact h.1
  | error error t =>
    rw [hresult] at h
    exact h

end

section

variable {s : Session} (hs : s.Known) {scope : ScopeId} (hscope : scope < s.store.next)

include hs

lemma endsKnown_call {f : Value} {args : List Value} (hf : f.KnownBelow s.store.next)
    (hargs : ∀ value ∈ args, value.KnownBelow s.store.next) :
    EndsKnown (fun next value => value.KnownBelow next) (call f args s) := by
  have hrun := Coupling.lockstep_call (C := knownCoupling) (w := ⟨s, hs⟩)
    (linked_known_iff.mpr ⟨rfl, hf⟩) (forall₂_known_iff.mpr ⟨rfl, hargs⟩)
  exact endsKnown_of_lockstep hrun fun _ _ _ h => (linked_known_iff.mp h).2

include hscope

lemma endsKnown_evaluate (node : Node) :
    EndsKnown (fun next value => value.KnownBelow next) (evaluate scope node s) := by
  have hrun := Coupling.lockstep_evaluate (C := knownCoupling) (w := ⟨s, hs⟩) ⟨rfl, hscope⟩ node
  exact endsKnown_of_lockstep hrun fun _ _ _ h => (linked_known_iff.mp h).2

lemma endsKnown_body {last : Value} (hlast : last.KnownBelow s.store.next) (statements : List Node) :
    EndsKnown (fun next value => value.KnownBelow next)
      (evaluateBody call scope last statements s) := by
  have hrun := Coupling.lockstep_evaluateBody (C := knownCoupling) (w := ⟨s, hs⟩)
    Coupling.lockstep_call ⟨rfl, hscope⟩ (linked_known_iff.mpr ⟨rfl, hlast⟩) statements
  exact endsKnown_of_lockstep hrun fun _ _ _ h => (linked_known_iff.mp h).2

lemma endsKnown_arguments (nodes : List Node) :
    EndsKnown (fun next values => ∀ value ∈ values, value.KnownBelow next)
      (evaluateAll call scope nodes s) := by
  have hrun := Coupling.lockstep_evaluateAll (C := knownCoupling) (w := ⟨s, hs⟩)
    Coupling.lockstep_call ⟨rfl, hscope⟩ nodes
  exact endsKnown_of_lockstep hrun fun _ _ _ h => (forall₂_known_iff.mp h).2

end

def Task.KnownBelow (next : Nat) : Task → Prop
  | .evaluate scope _ | .arguments scope _ => scope < next
  | .body scope last _ => scope < next ∧ last.KnownBelow next
  | .call function args => function.KnownBelow next ∧ ∀ value ∈ args, value.KnownBelow next

structure Point.Known (point : Point) : Prop where
  session : point.session.Known
  task : point.task.KnownBelow point.session.store.next

lemma Point.Known.after {point : Point} (h : point.Known) : point.after.Known := by
  obtain ⟨task, s⟩ := point
  obtain ⟨hs, htask⟩ := h
  cases task with
  | evaluate scope node => exact (endsKnown_evaluate hs htask node).known_after
  | body scope last statements => exact (endsKnown_body hs htask.1 htask.2 statements).known_after
  | arguments scope nodes => exact (endsKnown_arguments hs htask nodes).known_after
  | call function args => exact (endsKnown_call hs htask.1 htask.2).known_after

theorem Enters.known {outer inner : Point} (h : Enters outer inner) (houter : outer.Known) :
    inner.Known := by
  have hle {scope : ScopeId} {node : Node} {s t : Session} {value : Value}
      (hresult : evaluate scope node s = .ok value t) : s.store.next ≤ t.store.next := by
    have hkept := (scopesKept_evaluate scope node s).2
    rwa [after_of_ok hresult] at hkept
  obtain ⟨hs, htask⟩ := houter
  cases h with
  | block => exact ⟨hs, htask, Value.knownBelow_null _⟩
  | statement | assigned | left | operand | arguments => exact ⟨hs, htask⟩
  | @right scope op left right g s value t hleft =>
    have hends := endsKnown_evaluate hs htask left
    rw [hleft] at hends
    exact ⟨hends.1, Nat.lt_of_lt_of_le htask (hle hleft)⟩
  | @call scope callee nodes g s values t hcallable hvalues =>
    have hends := endsKnown_arguments hs htask nodes
    have hkept := (scopesKept_arguments scope nodes s).2
    rw [after_of_ok hvalues] at hkept
    rw [hvalues] at hends
    exact ⟨hends.1, (hs.get scope callee).mono hkept, hends.2⟩
  | firstStatement => exact ⟨hs, htask.1⟩
  | @laterStatements scope last statement rest s value t hstatement =>
    have hends := endsKnown_evaluate hs htask.1 statement
    rw [hstatement] at hends
    exact ⟨hends.1, Nat.lt_of_lt_of_le htask.1 (hle hstatement), hends.2⟩
  | firstArgument => exact ⟨hs, htask⟩
  | @laterArguments scope node rest s value t hnode =>
    have hends := endsKnown_evaluate hs htask node
    rw [hnode] at hends
    exact ⟨hends.1, Nat.lt_of_lt_of_le htask (hle hnode)⟩
  | @closure c args s hdepth hlive =>
    refine ⟨hs.enter (Store.lt_next_of_isLive hlive) c.params htask.2, ?_⟩
    change s.store.next < (enter c.scope c.params args s).2.store.next
    rw [next_enter]
    exact Nat.lt_succ_self _

end Evaluation

namespace Session

open Evaluation

/-- A closure that is bound in the outermost scope was made there, or its scope is gone. -/
def Settled (s : Session) : Prop :=
  ∀ frame name c, s.store.frame? globals = some frame → frame.get? name = some (.closure c) →
    c.scope ≠ globals → s.store.isLive c.scope = false

/-- A session in the middle of an evaluation in the scope or, with `none`, of a call. While something
runs in the outermost scope, no other scope is there. -/
structure Sound (scope : Option ScopeId) (s : Session) : Prop where
  known : s.Known
  settled : s.Settled
  live : s.store.isLive globals = true
  outermost : scope = some globals → ∀ other, s.store.isLive other = true → other = globals

lemma settled_of_outermost {s : Session}
    (h : ∀ other, s.store.isLive other = true → other = globals) : s.Settled := by
  intro frame name c _ _ hscope
  rw [← Bool.not_eq_true]
  exact fun hlive => hscope (h c.scope hlive)

namespace Sound

variable {scope : Option ScopeId} {s t : Session}

/-- What an evaluation writes to the outermost scope, it writes while no other scope is there. -/
lemma kept (h : Sound scope s) (ht : t.Known) (hscopes : ScopesKept scope s t)
    (hframes : FramesKept scope s t) : Sound scope t := by
  have houtermost : scope = some globals → ∀ other, t.store.isLive other = true → other = globals := by
    intro hscope other hlive
    rw [hscopes.1] at hlive
    exact h.outermost hscope other hlive
  refine ⟨ht, ?_, by rw [hscopes.1, h.live], houtermost⟩
  by_cases hscope : scope = some globals
  · exact settled_of_outermost (houtermost hscope)
  · intro frame name c hframe hget hne
    rw [hframes globals hscope] at hframe
    rw [hscopes.1]
    exact h.settled frame name c hframe hget hne

lemma enter (h : Sound scope s) {parent : ScopeId} (hparent : parent < s.store.next)
    (names : List String) {values : List Value}
    (hvalues : ∀ value ∈ values, value.KnownBelow s.store.next) :
    Sound (some (Evaluation.enter parent names values s).1)
      (Evaluation.enter parent names values s).2 := by
  have hglobals : globals ≠ s.store.next := Nat.ne_of_lt (Store.lt_next_of_isLive h.live)
  refine ⟨h.known.enter hparent names hvalues, fun frame name c hframe hget hne => ?_, ?_, ?_⟩
  · have hold : s.store.frame? globals = some frame := by
      rw [← hframe, ← Store.frame?_push_of_ne hglobals (some parent)]
      exact (Store.frame?_defineAll_of_ne hglobals names values).symm
    -- the scope of the call is new, so no closure knows it yet
    have hlt : c.scope < s.store.next := h.known.lt_of_get? hold hget
    have hnew : (s.store.next == c.scope) = false := beq_eq_false_iff_ne.mpr (Nat.ne_of_gt hlt)
    rw [isLive_enter, hnew, Bool.false_or]
    exact h.settled frame name c hold hget hne
  · rw [isLive_enter, h.live, Bool.or_true]
  · intro hscope
    exact absurd (Option.some.inj hscope).symm hglobals

end Sound

end Session

namespace Evaluation

open Session (Sound)

lemma Effect.and {R S : Option ScopeId → Session → Session → Prop} (hR : Effect R) (hS : Effect S) :
    Effect fun scope s t => R scope s t ∧ S scope s t where
  refl scope s := ⟨hR.refl scope s, hS.refl scope s⟩
  trans hst htu := ⟨hR.trans hst.1 htu.1, hS.trans hst.2 htu.2⟩
  weaken scope h := ⟨hR.weaken scope h.1, hS.weaken scope h.2⟩
  define scope name value s := ⟨hR.define scope name value s, hS.define scope name value s⟩
  fresh s := ⟨hR.fresh s, hS.fresh s⟩
  raise signal s := ⟨hR.raise signal s, hS.raise signal s⟩
  call h := ⟨hR.call h.1, hS.call h.2⟩

lemma effect_kept : Effect fun scope s t => ScopesKept scope s t ∧ FramesKept scope s t :=
  effect_scopesKept.and effect_framesKept

structure Point.Sound (point : Point) : Prop where
  known : point.Known
  sound : point.session.Sound point.task.scope?

lemma Point.Sound.after {point : Point} (h : point.Sound) :
    point.after.Sound point.task.scope? := by
  obtain ⟨hscopes, hframes⟩ := effect_kept.keeps_task point
  exact h.sound.kept h.known.after hscopes hframes

theorem Enters.sound {outer inner : Point} (h : Enters outer inner) (houter : outer.Sound) :
    inner.Sound := by
  have hinner := h.known houter.known
  obtain ⟨scope, hscope, hsame, hscopes, hframes⟩ | ⟨frame, hcalls⟩ := h.effect_or_calls effect_kept
  · have hsound := houter.sound
    rw [hscope] at hsound
    have hkept := hsound.kept hinner.session hscopes hframes
    refine ⟨hinner, hkept.known, hkept.settled, hkept.live, fun hglobals => ?_⟩
    exact hkept.outermost (congrArg some (hsame _ hglobals).symm)
  · cases hcalls with
    | @closure c args s hdepth hlive =>
      exact ⟨hinner, houter.sound.enter (Store.lt_next_of_isLive hlive) c.params houter.known.task.2⟩

theorem Visits.sound {outer inner : Point} (h : Visits outer inner) (houter : outer.Sound) :
    inner.Sound := by
  induction h with
  | refl => exact houter
  | tail _ hstep ih => exact hstep.sound ih

end Evaluation

namespace Session

open Evaluation

lemma known_new : new.Known := by
  refine ⟨fun entry hmem binding hbinding => ?_, fun entry hmem parent hparent => ?_⟩
  · rw [List.mem_singleton.mp hmem] at hbinding
    cases hbinding
  · rw [List.mem_singleton.mp hmem] at hparent
    cases hparent

lemma known_afterSubmissions (sources : List String) : (afterSubmissions sources).Known := by
  induction sources using List.reverseRecOn with
  | nil => exact known_new
  | append_singleton sources source ih =>
    rw [afterSubmissions_concat, perform, after_interpret]
    split
    · have hlive := isLive_afterSubmissions sources globals
      rw [beq_self_eq_true] at hlive
      have hstart : Known { afterSubmissions sources with depth := 0 } := ⟨ih.closures, ih.parents⟩
      exact (endsKnown_evaluate hstart (Store.lt_next_of_isLive hlive) _).known_after
    · exact ih

lemma Starts.sound {sources : List String} {n : Nat} {root : Point} (h : Starts sources n root) :
    root.Sound := by
  have houtermost (other : ScopeId) (hlive : root.session.store.isLive other = true) :
      other = globals := by
    rw [h.isLive_eq, beq_iff_eq] at hlive
    exact hlive.symm
  have hlt := globals_lt_next h
  have hlive := h.isLive_eq globals
  rw [beq_self_eq_true] at hlive
  obtain ⟨source, node, -, -, rfl⟩ := h
  have hknown := known_afterSubmissions (sources.take n)
  have hstart : Known { afterSubmissions (sources.take n) with depth := 0 } :=
    ⟨hknown.closures, hknown.parents⟩
  exact ⟨⟨hstart, hlt⟩, hstart, settled_of_outermost houtermost, hlive, fun _ => houtermost⟩

/-- Where a part of the evaluation of a submission starts, and where it ends, closures bound in the
outermost scope were made there or their scopes are gone. -/
theorem Reaches.sound {sources : List String} {n : Nat} {point : Point}
    (h : Reaches sources n point) : point.session.Sound none ∧ point.after.Sound none := by
  obtain ⟨root, hroot, hvisits⟩ := h
  have hsound := hvisits.sound hroot.sound
  have hafter := hsound.after
  exact ⟨⟨hsound.sound.known, hsound.sound.settled, hsound.sound.live, by simp⟩,
    ⟨hafter.known, hafter.settled, hafter.live, by simp⟩⟩

end Session

end ScriptConsole
