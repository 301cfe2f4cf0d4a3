import ScriptConsole.Proofs.Lifetimes
import ScriptConsole.Proofs.Lockstep
import ScriptConsole.Terminal.Event

/-!
# Lines and statements

A terminal interprets a line together with the lines that wait before it. `Cut` says which lines
belong together without running a terminal: a group ends with the first line that makes it anything
but incomplete. However often the lines of a group are read again, its statement is evaluated once,
with its last line (`submit_evaluates_each_group_once`): an incomplete source fails before anything is
evaluated, and no evaluation fails for being incomplete. The terminal takes the signals after every
line, and evaluation does not see them (`interpret_of_store_eq`).
-/

namespace ScriptConsole

namespace Evaluation

open Value (Linked)

lemma linked_eq_iff {v v' : Value} : Linked Eq v v' ↔ v = v' := by
  constructor
  · intro h
    cases h with
    | closure h => rw [h]
    | _ => rfl
  · rintro rfl
    exact Value.linked_self fun _ _ => rfl

lemma forall₂_linked_eq_iff {vs vs' : List Value} : List.Forall₂ (Linked Eq) vs vs' ↔ vs = vs' := by
  have hlinked : Linked Eq = Eq := by
    funext v v'
    exact propext linked_eq_iff
  rw [hlinked, List.forall₂_eq_eq_eq]

/-- A session and the signals that a second one has queued, which is the same otherwise. -/
def signalsCoupling : Coupling (Session × List Signal) where
  left w := w.1
  right w := { w.1 with signals := w.2 }
  Later _ _ := True
  Scopes _ := Eq
  Closures _ := Eq
  refl _ := trivial
  trans _ _ := trivial
  scopes_later _ h := h
  closures_later _ h := h
  alike h := by
    rw [h]
    exact ⟨rfl, rfl, rfl⟩
  depth _ := rfl
  isLive h := by rw [h]
  get {w a b} h name := by
    rw [h]
    exact linked_eq_iff.mpr rfl
  define {w a b v v'} h hv name := by
    subst h
    obtain rfl := linked_eq_iff.mp hv
    exact ⟨({ w.1 with store := w.1.store.define a name v }, w.2), trivial, rfl, rfl⟩
  make {w a b} h := by
    subst h
    exact ⟨({ w.1 with store := w.1.store.fresh.2 }, w.2), trivial, rfl, rfl, fun _ _ _ => rfl⟩
  raise w signal :=
    ⟨({ w.1 with signals := w.1.signals ++ [signal] }, w.2 ++ [signal]), trivial, rfl, rfl⟩
  call {w c d args args'} h hlive hargs := by
    subst h
    obtain rfl := forall₂_linked_eq_iff.mp hargs
    refine ⟨((enter c.scope c.params args w.1).2, w.2), rfl, rfl, rfl, fun u _ => ?_⟩
    exact ⟨(leave w.1.store.next u.1, u.2), trivial, rfl, rfl, fun _ _ h => h⟩

/-- Evaluation does not see the signals that are queued, and never asks for more input. -/
lemma evaluate_with_signals (scope : ScopeId) (node : Node) (s : Session) (signals : List Signal) :
    (∃ value s' t', evaluate scope node s = .ok value s' ∧
      evaluate scope node { s with signals } = .ok value t' ∧ s'.store = t'.store) ∨
    ∃ error s' t', evaluate scope node s = .error error s' ∧
      evaluate scope node { s with signals } = .error error t' ∧ s'.store = t'.store ∧
      error.isIncomplete = false := by
  have hrun : signalsCoupling.Ended (s, signals) signalsCoupling.Values (evaluate scope node s)
      (evaluate scope node { s with signals }) :=
    Coupling.lockstep_evaluate (C := signalsCoupling) rfl node
  generalize evaluate scope node s = r at hrun ⊢
  generalize evaluate scope node { s with signals } = r' at hrun ⊢
  cases hrun with
  | @ok w value value' s' t' _ hs ht hvalue =>
    obtain rfl := linked_eq_iff.mp hvalue
    exact .inl ⟨value, s', t', rfl, rfl, by rw [← hs, ← ht]; rfl⟩
  | @error w error s' t' _ hs ht hfinal =>
    exact .inr ⟨error, s', t', rfl, rfl, by rw [← hs, ← ht]; rfl, hfinal⟩

end Evaluation

namespace Session

open Evaluation (after)

def outcome (source : String) (s : Session) : Except Error (Option Value) :=
  match interpret source s with
  | .ok value _ => .ok value
  | .error error _ => .error error

lemma outcome_eq (source : String) (s : Session) :
    outcome source s =
      match parse source with
      | .error error => .error error
      | .ok none => .ok none
      | .ok (some node) =>
        match Evaluation.evaluate globals node { s with depth := 0 } with
        | .ok value _ => .ok (some value)
        | .error error _ => .error error := by
  unfold outcome interpret
  cases parse source with
  | error error => rfl
  | ok tree =>
    cases tree with
    | none => rfl
    | some node =>
      change (match (some <$> Evaluation.evaluate globals node : Eval (Option Value))
        { s with depth := 0 } with
        | .ok value _ => _
        | .error error _ => _) = _
      simp only [Functor.map, EStateM.map]
      cases Evaluation.evaluate globals node { s with depth := 0 } <;> rfl

/-- A submission depends on the scopes of the session only. -/
lemma interpret_of_store_eq {s t : Session} (h : s.store = t.store) (source : String) :
    outcome source s = outcome source t ∧
      (after (interpret source) s).store = (after (interpret source) t).store := by
  rw [outcome_eq, outcome_eq, after_interpret, after_interpret]
  cases parse source with
  | error error => exact ⟨rfl, h⟩
  | ok tree =>
    cases tree with
    | none => exact ⟨rfl, h⟩
    | some node =>
      have hstart : ({ t with depth := 0 } : Session) =
          { ({ s with depth := 0 } : Session) with signals := t.signals } := by
        rw [h]
      dsimp only
      rw [hstart]
      unfold after
      obtain ⟨value, s', t', hs, ht, hstore⟩ | ⟨error, s', t', hs, ht, hstore, -⟩ :=
        Evaluation.evaluate_with_signals globals node { s with depth := 0 } t.signals
      · rw [hs, ht]
        exact ⟨rfl, hstore⟩
      · rw [hs, ht]
        exact ⟨rfl, hstore⟩

lemma outcome_incomplete_iff (source : String) (s : Session) :
    (∃ error, outcome source s = .error error ∧ error.isIncomplete = true) ↔
      ∃ fault, parse source = .error (.incomplete fault) := by
  rw [outcome_eq]
  cases parse source with
  | error error =>
    constructor
    · rintro ⟨_, heq, hincomplete⟩
      cases heq
      cases error <;> cases hincomplete
      exact ⟨_, rfl⟩
    · rintro ⟨fault, heq⟩
      cases heq
      exact ⟨_, rfl, rfl⟩
  | ok tree =>
    refine ⟨?_, fun ⟨fault, heq⟩ => by cases heq⟩
    cases tree with
    | none =>
      rintro ⟨error, heq, -⟩
      cases heq
    | some node =>
      dsimp only
      obtain ⟨value, s', t', hs, -⟩ | ⟨error, s', t', hs, -, -, hfinal⟩ :=
        Evaluation.evaluate_with_signals globals node { s with depth := 0 } []
      · rw [hs]
        rintro ⟨error, heq, -⟩
        cases heq
      · rw [hs]
        rintro ⟨_, heq, hincomplete⟩
        cases heq
        rw [hfinal] at hincomplete
        cases hincomplete

lemma after_interpret_of_incomplete {source : String} {fault : Fault}
    (h : parse source = .error (.incomplete fault)) (s : Session) :
    after (interpret source) s = s := by
  rw [after_interpret, h]

end Session

namespace Terminal

open Evaluation (after)
open Session (outcome afterSubmissions)

def joined (lines : List String) : String :=
  "\n".intercalate lines

/-- The lines are the beginning of a statement that more lines may complete. -/
def Awaits (lines : List String) : Prop :=
  ∃ fault, parse (joined lines) = .error (.incomplete fault)

/-- The lines await more after every line but the last. -/
structure Finished (group : List String) : Prop where
  ne_nil : group ≠ []
  complete : ¬Awaits group
  first : ∀ before, before <+: group → before ≠ [] → before ≠ group → Awaits before

/-- The lines await more after every line. -/
def Unfinished (group : List String) : Prop :=
  ∀ before, before <+: group → before ≠ [] → Awaits before

/-- The lines are these groups, one after another, and a last one that is not finished. -/
structure Cut (lines : List String) (groups : List (List String)) (rest : List String) : Prop where
  flatten : groups.flatten ++ rest = lines
  finished : ∀ group ∈ groups, Finished group
  unfinished : Unfinished rest

lemma unfinished_nil : Unfinished [] := by
  intro before hbegins hne
  exact absurd (List.prefix_nil.mp hbegins) hne

lemma Unfinished.concat {group : List String} {line : String} (h : Unfinished group)
    (hawaits : Awaits (group ++ [line])) : Unfinished (group ++ [line]) := by
  intro before hbegins hne
  rcases List.prefix_concat_iff.mp hbegins with rfl | hbegins
  · exact hawaits
  · exact h before hbegins hne

lemma Unfinished.finished {group : List String} {line : String} (h : Unfinished group)
    (hcomplete : ¬Awaits (group ++ [line])) : Finished (group ++ [line]) := by
  refine ⟨by simp, hcomplete, fun before hbegins hne hproper => ?_⟩
  rcases List.prefix_concat_iff.mp hbegins with rfl | hbegins
  · exact absurd rfl hproper
  · exact h before hbegins hne

lemma Finished.unfinished {group before : List String} (h : Finished group)
    (hbefore : before <+: group) (hne : before ≠ group) : Unfinished before := by
  intro earlier hbegins hearlier
  refine h.first earlier (hbegins.trans hbefore) hearlier fun heq => ?_
  subst heq
  exact hne (hbefore.eq_of_length_le hbegins.length_le)

lemma exists_cut (lines : List String) : ∃ groups rest, Cut lines groups rest := by
  induction lines using List.reverseRecOn with
  | nil => exact ⟨[], [], rfl, by simp, unfinished_nil⟩
  | append_singleton lines line ih =>
    obtain ⟨groups, rest, rfl, hfinished, hunfinished⟩ := ih
    by_cases hawaits : Awaits (rest ++ [line])
    · exact ⟨groups, rest ++ [line], by simp, hfinished, hunfinished.concat hawaits⟩
    · refine ⟨groups ++ [rest ++ [line]], [], by simp, fun group hmem => ?_, unfinished_nil⟩
      rcases List.mem_append.mp hmem with hmem | hmem
      · exact hfinished group hmem
      · rw [List.mem_singleton.mp hmem]
        exact hunfinished.finished hawaits

lemma Finished.eq_of_begins {group group' lines : List String} (h : Finished group)
    (h' : Finished group') (hbegins : group <+: lines) (hbegins' : group' <+: lines) :
    group = group' := by
  rcases List.prefix_or_prefix_of_prefix hbegins hbegins' with hle | hle
  · by_contra hne
    exact h.complete (h'.first group hle h.ne_nil hne)
  · by_contra hne
    exact h'.complete (h.first group' hle h'.ne_nil (Ne.symm hne))

lemma Cut.unique {lines : List String} {groups groups' : List (List String)}
    {rest rest' : List String} (h : Cut lines groups rest) (h' : Cut lines groups' rest') :
    groups' = groups ∧ rest' = rest := by
  induction groups generalizing lines groups' with
  | nil =>
    cases groups' with
    | nil => exact ⟨rfl, h'.flatten.trans h.flatten.symm⟩
    | cons group' groups' =>
      -- a finished group cannot begin an unfinished one
      have hgroup' := h'.finished group' List.mem_cons_self
      have hbegins : group' <+: rest := by
        have heq := h'.flatten.trans h.flatten.symm
        exact ⟨groups'.flatten ++ rest', by simpa using heq⟩
      exact absurd (h.unfinished group' hbegins hgroup'.ne_nil) hgroup'.complete
  | cons group groups ih =>
    have hgroup := h.finished group List.mem_cons_self
    have hlines : group ++ (groups.flatten ++ rest) = lines := by simpa using h.flatten
    cases groups' with
    | nil =>
      have hbegins : group <+: rest' := by
        have heq := hlines.trans h'.flatten.symm
        exact ⟨groups.flatten ++ rest, by simpa using heq⟩
      exact absurd (h'.unfinished group hbegins hgroup.ne_nil) hgroup.complete
    | cons group' groups' =>
      have hgroup' := h'.finished group' List.mem_cons_self
      have hlines' : group' ++ (groups'.flatten ++ rest') = lines := by simpa using h'.flatten
      obtain rfl := hgroup.eq_of_begins hgroup' ⟨_, hlines⟩ ⟨_, hlines'⟩
      have hcut : Cut (groups.flatten ++ rest) groups rest :=
        ⟨rfl, fun g hg => h.finished g (List.mem_cons_of_mem _ hg), h.unfinished⟩
      have hcut' : Cut (groups.flatten ++ rest) groups' rest' :=
        ⟨List.append_cancel_left (hlines'.trans hlines.symm),
          fun g hg => h'.finished g (List.mem_cons_of_mem _ hg), h'.unfinished⟩
      obtain ⟨rfl, rfl⟩ := ih hcut hcut'
      exact ⟨rfl, rfl⟩

/-! ### What a terminal does with the lines -/

def submitAll (terminal : Terminal) (lines : List String) : Terminal :=
  lines.foldl (fun terminal line => (terminal.submit line).terminal) terminal

lemma submitAll_append (terminal : Terminal) (lines lines' : List String) :
    terminal.submitAll (lines ++ lines') = (terminal.submitAll lines).submitAll lines' :=
  List.foldl_append

/-- The terminal waits with `rest`, and its session has interpreted the groups. -/
structure Stands (settings : Settings) (groups : List (List String)) (rest : List String)
    (terminal : Terminal) : Prop where
  settings : terminal.settings = settings
  pending : terminal.pending = rest
  store : terminal.session.store = (afterSubmissions (groups.map joined)).store
  signals : terminal.session.signals = []

lemma interpret_eq (terminal : Terminal) (line : String) :
    terminal.interpret line =
      (outcome (joined (terminal.pending ++ [line])) terminal.session,
        after (Session.interpret (joined (terminal.pending ++ [line]))) terminal.session) := by
  unfold interpret outcome after
  change (match Session.interpret (joined (terminal.pending ++ [line])) terminal.session with
    | .ok value session => _
    | .error error session => _) = _
  cases Session.interpret (joined (terminal.pending ++ [line])) terminal.session <;> rfl

section

variable {settings : Settings} {groups : List (List String)} {rest : List String}
  {terminal : Terminal} (h : Stands settings groups rest terminal) {line : String}

include h

lemma Stands.outcome_eq :
    (terminal.interpret line).1 =
      outcome (joined (rest ++ [line])) (afterSubmissions (groups.map joined)) := by
  rw [interpret_eq, h.pending]
  exact (Session.interpret_of_store_eq h.store _).1

/-- A line that leaves its group incomplete waits, and nothing else happens. -/
lemma Stands.of_awaits (hawaits : Awaits (rest ++ [line])) :
    Stands settings groups (rest ++ [line]) (terminal.submit line).terminal ∧
      (terminal.interpret line).2 = terminal.session ∧
      (terminal.submit line).terminal.session = terminal.session ∧
      (terminal.submit line).printed = [line] := by
  obtain ⟨fault, hparse⟩ := hawaits
  have hinterpret : terminal.interpret line = (.error (.incomplete fault), terminal.session) := by
    rw [interpret_eq, h.pending, Session.outcome_eq, hparse,
      Session.after_interpret_of_incomplete hparse]
  -- the session had no signals to be taken
  have hsession : (terminal.submit line).terminal.session = terminal.session := by
    unfold submit
    rw [hinterpret]
    change { terminal.session with signals := [] } = terminal.session
    rw [← h.signals]
  have hpending : (terminal.submit line).terminal.pending = rest ++ [line] := by
    unfold submit
    rw [hinterpret, ← h.pending]
    rfl
  refine ⟨⟨h.settings, hpending, ?_, ?_⟩, by rw [hinterpret], hsession, ?_⟩
  · rw [hsession, h.store]
  · rw [hsession, h.signals]
  · unfold submit
    rw [hinterpret]
    rfl

lemma Stands.of_complete (hcomplete : ¬Awaits (rest ++ [line])) :
    Stands settings (groups ++ [rest ++ [line]]) [] (terminal.submit line).terminal ∧
      (terminal.submit line).printed = line :: outcomeEntry settings
        (outcome (joined (rest ++ [line])) (afterSubmissions (groups.map joined))) := by
  have hwaiting : waiting terminal.pending line (terminal.interpret line).1 = [] := by
    rw [interpret_eq, h.pending]
    unfold waiting
    split
    · rfl
    · next error heq =>
      rw [if_neg]
      intro hincomplete
      exact hcomplete ((Session.outcome_incomplete_iff _ terminal.session).mp ⟨error, heq, hincomplete⟩)
  refine ⟨⟨h.settings, hwaiting, ?_, rfl⟩, ?_⟩
  · change (terminal.interpret line).2.store = _
    rw [interpret_eq, h.pending, List.map_append, List.map_singleton, Session.afterSubmissions_concat,
      Session.perform]
    exact (Session.interpret_of_store_eq h.store _).2
  · change line :: outcomeEntry terminal.settings (terminal.interpret line).1 = _
    rw [h.outcome_eq, h.settings]

end

lemma stands_new (settings : Settings) : Stands settings [] [] (new settings) :=
  ⟨rfl, rfl, rfl, rfl⟩

lemma Stands.unfinished {settings : Settings} {groups : List (List String)} {terminal : Terminal}
    (h : Stands settings groups [] terminal) {rest : List String} (hrest : Unfinished rest) :
    Stands settings groups rest (terminal.submitAll rest) := by
  induction rest using List.reverseRecOn with
  | nil => exact h
  | append_singleton rest line ih =>
    have hbefore : Unfinished rest := fun before hbegins =>
      hrest before (hbegins.trans (List.prefix_append _ _))
    have hawaits : Awaits (rest ++ [line]) := hrest _ (List.prefix_refl _) (by simp)
    rw [submitAll_append]
    exact ((ih hbefore).of_awaits hawaits).1

lemma Stands.finished {settings : Settings} {groups : List (List String)} {terminal : Terminal}
    (h : Stands settings groups [] terminal) {group : List String} (hgroup : Finished group) :
    Stands settings (groups ++ [group]) [] (terminal.submitAll group) := by
  obtain ⟨before, line, rfl⟩ := (List.eq_nil_or_concat' group).resolve_left hgroup.ne_nil
  have hbefore := hgroup.unfinished (List.prefix_append before [line]) (by simp)
  rw [submitAll_append]
  exact ((h.unfinished hbefore).of_complete hgroup.complete).1

theorem Cut.stands {lines : List String} {groups : List (List String)} {rest : List String}
    (h : Cut lines groups rest) (settings : Settings) :
    Stands settings groups rest ((new settings).submitAll lines) := by
  obtain ⟨rfl, hfinished, hrest⟩ := h
  have hgroups : Stands settings groups [] ((new settings).submitAll groups.flatten) := by
    induction groups using List.reverseRecOn with
    | nil => exact stands_new settings
    | append_singleton groups group ih =>
      have hearlier := ih fun g hg => hfinished g (List.mem_append_left _ hg)
      have hgroup := hfinished group (List.mem_append_right _ List.mem_cons_self)
      rw [List.flatten_append, List.flatten_singleton, submitAll_append]
      exact hearlier.finished hgroup
  rw [submitAll_append]
  exact hgroups.unfinished hrest

lemma length_outcomeEntry_le (settings : Settings) (result : Except Error (Option Value)) :
    (outcomeEntry settings result).length ≤ 1 := by
  unfold outcomeEntry
  split
  · exact Nat.zero_le 1
  · exact Nat.zero_le 1
  · exact Nat.le_refl 1
  · split
    · exact Nat.zero_le 1
    · exact Nat.le_refl 1

/-- `Continues groups rest before line`: after `before` comes `line`, and its group does not end with
it. -/
inductive Continues (groups : List (List String)) (rest : List String) :
    List String → String → Prop
  | inside {done later before line next behind}
      (h : groups = done ++ (before ++ line :: next :: behind) :: later) :
      Continues groups rest (done.flatten ++ before) line
  | unfinished {before line behind} (h : rest = before ++ line :: behind) :
      Continues groups rest (groups.flatten ++ before) line

lemma Cut.of_continues {lines before : List String} {groups : List (List String)}
    {rest : List String} {line : String} (h : Cut lines groups rest)
    (hline : Continues groups rest before line) :
    ∃ done earlier, Cut before done earlier ∧ Awaits (earlier ++ [line]) := by
  cases hline with
  | @inside done later before line next behind hgroups =>
    have hgroup : Finished (before ++ line :: next :: behind) :=
      h.finished _ (hgroups ▸ List.mem_append_right _ List.mem_cons_self)
    have hdone : ∀ g ∈ done, Finished g := fun g hg =>
      h.finished g (hgroups ▸ List.mem_append_left _ hg)
    have hbegins : before ++ [line] <+: before ++ line :: next :: behind :=
      ⟨next :: behind, by simp⟩
    refine ⟨done, before, ⟨rfl, hdone, ?_⟩, hgroup.first _ hbegins (by simp) (by simp)⟩
    exact hgroup.unfinished (List.prefix_append _ _) (by simp)
  | @unfinished before line behind hrest =>
    have hbegins : before ++ [line] <+: rest := ⟨behind, by simp [hrest]⟩
    refine ⟨groups, before, ⟨rfl, h.finished, fun earlier hearlier => ?_⟩,
      h.unfinished _ hbegins (by simp)⟩
    exact h.unfinished earlier (hearlier.trans ((List.prefix_append _ _).trans hbegins))

/-- Lines submitted to a new terminal can be cut, in just one way, into groups that end with the first
line after which they are not incomplete, and a last group that is not finished. The variables of the
terminal are those of a new session that has interpreted every finished group once, in order, and no
signal is left. The terminal waits for more exactly if there is an unfinished group. A line that does
not end its group leaves the session as it is and prints itself only. A line that ends its group prints
itself and at most one entry, for what interpreting the group gives. -/
theorem submit_evaluates_each_group_once (settings : Settings) (lines : List String) :
    ∃ groups rest, Cut lines groups rest ∧
      (∀ groups' rest', Cut lines groups' rest' → groups' = groups ∧ rest' = rest) ∧
      ((new settings).submitAll lines).session.store =
        (afterSubmissions (groups.map joined)).store ∧
      ((new settings).submitAll lines).session.signals = [] ∧
      (((new settings).submitAll lines).isPending = true ↔ rest ≠ []) ∧
      (∀ before line, Continues groups rest before line →
        (((new settings).submitAll before).interpret line).2 =
            ((new settings).submitAll before).session ∧
          ((new settings).submitAll (before ++ [line])).session =
            ((new settings).submitAll before).session ∧
          (((new settings).submitAll before).submit line).printed = [line]) ∧
      ∀ done before line later, groups = done ++ (before ++ [line]) :: later →
        ∃ entries, entries.length ≤ 1 ∧
          (((new settings).submitAll (done.flatten ++ before)).submit line).printed =
            line :: entries ∧
          entries = outcomeEntry settings
            (outcome (joined (before ++ [line])) (afterSubmissions (done.map joined))) := by
  obtain ⟨groups, rest, hcut⟩ := exists_cut lines
  have hstands := hcut.stands settings
  refine ⟨groups, rest, hcut, fun _ _ => hcut.unique, hstands.store, hstands.signals, ?_, ?_, ?_⟩
  · rw [isPending, hstands.pending, Bool.not_eq_true', List.isEmpty_eq_false_iff]
  · intro before line hline
    obtain ⟨done, earlier, hbefore, hawaits⟩ := hcut.of_continues hline
    obtain ⟨-, hinterpret, hsession, hprinted⟩ := (hbefore.stands settings).of_awaits hawaits
    refine ⟨hinterpret, ?_, hprinted⟩
    rw [submitAll_append]
    exact hsession
  · intro done before line later hgroups
    have hgroup : Finished (before ++ [line]) :=
      hcut.finished _ (hgroups ▸ List.mem_append_right _ List.mem_cons_self)
    have hdone : ∀ g ∈ done, Finished g := fun g hg =>
      hcut.finished g (hgroups ▸ List.mem_append_left _ hg)
    have hbefore : Cut (done.flatten ++ before) done before :=
      ⟨rfl, hdone, hgroup.unfinished (List.prefix_append _ _) (by simp)⟩
    obtain ⟨-, hprinted⟩ := (hbefore.stands settings).of_complete hgroup.complete
    exact ⟨_, length_outcomeEntry_le settings _, hprinted, rfl⟩

end Terminal

end ScriptConsole
