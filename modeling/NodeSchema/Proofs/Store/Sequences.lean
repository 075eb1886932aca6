import NodeSchema.Proofs.Sequence
import NodeSchema.Proofs.Store.Reading

/-!
# Sequences of children and their histories

The children that a field holds are a sequence, to which children are added one by one, and from which
a child is taken out when its tree is released. So the sequence is the one to which its own history
leads, however the run goes: it holds what was added since its node was made, apart from what was
released, and its capacity is the one that belongs to this number of children.

* `historyIn`: what a run does to the sequence of a field.
* `Recorded`: the sequence of a field is the replay of a history. `OK.recorded_of_effect` is the step.
* `sequences_run`: **all sequences, those of nodes and all others, follow their histories**, and two of
  them are equal exactly if they hold the same.
-/

namespace NodeSchema

open Sequence

theorem Sequence.erase_eq_undergo (q : Sequence Handle) (h : Handle) :
    q.erase h = q.undergo (.detach fun k => k = h) := by
  unfold erase
  have hany : (q.toList.any fun k => k = h) ↔ h ∈ q.toList := by simp
  simp only [undergo, hany, decide_not]

theorem Slot.eq_empty_of_ofField {f : Field} {q : Sequence Handle}
    (h : Slot.ofField f = .children q) : q = Sequence.empty := by
  unfold Slot.ofField at h
  split at h <;> cases h
  rfl

namespace Store

variable {r : Registry} {s t : Store r}

/-! ### What happens to the sequence of a field -/

/-- What an action with this answer does to the children in the field `name` of `h`. A new node starts
with empty sequences, and releasing a tree takes its root out of the sequence that holds it. -/
def historyOf (h : Handle) (name : String) :
    Action → Except Error Answer → List (Event Handle)
  | .allocate _ _, .ok (.made k) => if k = h then [.free] else []
  | .pushChild k other c, .ok .done => if (k, other) = (h, name) then [.write c] else []
  | .freeTree c, .ok (.count _) => [.detach fun k => k = c]
  | _, _ => []

/-- What a run does to the children in the field `name` of `h`. -/
def historyIn (s : Store r) (h : Handle) (name : String) : List Action → List (Event Handle)
  | [] => []
  | a :: rest => historyOf h name a (s.perform a).1 ++ (s.perform a).2.historyIn h name rest

/-- The children in the field `name` of `h`, if there are any, are those to which the history leads. -/
def Recorded (s : Store r) (h : Handle) (name : String) (history : List (Event Handle)) : Prop :=
  ∀ q, s.children h name = .ok q → q = replay history

theorem children_eq_ok_iff {h : Handle} {name : String} {q : Sequence Handle} :
    s.children h name = .ok q ↔
      ∃ p, s.place h name = .ok p ∧ p.slot? = some (.children q) := by
  cases hp : s.place h name with
  | error e =>
    rw [children, hp]
    simp [error_bind]
  | ok p =>
    rw [children_of_place hp]
    simp only [Except.ok.injEq, exists_eq_left']
    cases p.slot? with
    | none => simp
    | some slot => cases slot <;> simp

/-- A change that leaves the slots of a node alone leaves its children alone. -/
theorem children_of_map {h : Handle} {F : Node r → Node r} (hget : t.get? h = (s.get? h).map F)
    (hF : ∀ n, (F n).toHeader = n.toHeader) (hslots : ∀ n, (F n).slots = n.slots) (name : String) :
    t.children h name = s.children h name := by
  have hplace := place_of_map hget hF name
  cases hp : s.place h name with
  | error e =>
    rw [hp] at hplace
    rw [children, children, hplace, hp]
    rfl
  | ok p =>
    rw [hp] at hplace
    have hslot : ({ p with node := F p.node } : Place r).slot? = p.slot? := by
      rw [Place.slot?, Place.slot?, hslots]
    rw [children_of_place hp, children_of_place hplace, hslot]
    rfl

/-- A field whose slot has become another one holds no children. -/
theorem Wrote.children_self {h : Handle} {g : Slot → Slot} {owner : Handle → Node r → Option Handle}
    {name : String} {p : Place r} (hw : s.Wrote t h p.index g owner)
    (hp : s.place h name = .ok p) {slot : Slot} (hslot : p.slot? = some slot)
    {q : Sequence Handle} (hq : t.children h name = .ok q) : g slot = .children q := by
  obtain ⟨p', hp', hslot'⟩ := hw.slot_self hp hslot
  obtain ⟨p'', hp'', hslot''⟩ := children_eq_ok_iff.1 hq
  rw [hp'] at hp''
  cases hp''
  rw [hslot'] at hslot''
  exact Option.some.inj hslot''

/-! ### One action -/

/-- A field of a new node has no children. -/
theorem OK.children_insert (hs : s.OK) (f : Family) (v : Record) (kind line : ℕ) {name : String}
    {q : Sequence Handle}
    (hq : (s.insert (.fresh f v kind line)).2.children (s.insert (.fresh f v kind line)).1 name =
      .ok q) : q = Sequence.empty := by
  obtain ⟨p, hp, hslot⟩ := children_eq_ok_iff.1 hq
  have hnode := (place_ok hp).1
  rw [get?_insert hs.cells, if_pos rfl] at hnode
  rw [Place.slot?, ← Option.some.inj hnode] at hslot
  obtain ⟨x, -, hx⟩ := List.mem_map.1 (List.mem_of_getElem? hslot)
  exact Slot.eq_empty_of_ofField hx

/-- **What an action does to the children of a field is what its history says.** -/
theorem OK.recorded_of_effect (hs : s.OK) {a : Action} {x : Except Error Answer}
    (he : s.Effect a x t) {h : Handle} {name : String} {events : List (Event Handle)}
    (hr : s.Recorded h name events) : t.Recorded h name (events ++ historyOf h name a x) := by
  intro q hq
  have hsame : historyOf h name a x = [] → t.children h name = s.children h name →
      q = replay (events ++ historyOf h name a x) := by
    intro hnil hchildren
    rw [hnil, List.append_nil]
    exact hr q (hchildren ▸ hq)
  cases he with
  | refused a e =>
    refine hsame ?_ rfl
    cases a <;> rfl
  | allocate variant line f v kind =>
    by_cases hh : (s.insert (.fresh f v kind line)).1 = h
    · rw [← hh] at hq
      rw [hs.children_insert f v kind line hq, historyOf, if_pos hh, replay, List.foldl_concat]
      rfl
    · refine hsame (if_neg hh) (children_of_map (F := id) ?_ (fun _ => rfl) (fun _ => rfl) name)
      rw [get?_insert hs.cells, if_neg fun e => hh e.symm, Option.map_id_fun, id]
  | setValue k other text p old hp hslot =>
    have hw := s.wrote_setSlot k p.index fun _ => .value (some text)
    refine hsame rfl ?_
    by_cases hself : (h, name) = (k, other)
    · cases hself
      cases hw.children_self hp hslot hq
    · exact (hw.fields_other hp hself).2.2
  | setChild k other c p old hp hslot =>
    have hplace := (attachPlace_ok hp).1
    have hw := s.wrote_linkChild p old k c
    refine hsame rfl ?_
    by_cases hself : (h, name) = (k, other)
    · cases hself
      cases hw.children_self hplace hslot hq
    · exact (hw.fields_other hplace hself).2.2
  | pushChild k other c p nodes hp hslot =>
    have hplace := (attachPlace_ok hp).1
    have hw := s.wrote_linkLast p nodes k c
    by_cases hself : (k, other) = (h, name)
    · cases hself
      cases hw.children_self hplace hslot hq
      have hnodes := hr nodes (children_eq_ok_iff.2 ⟨p, hplace, hslot⟩)
      rw [historyOf, if_pos rfl, replay, List.foldl_concat, hnodes]
      rfl
    · exact hsame (if_neg hself) (hw.fields_other hplace fun e => hself e.symm).2.2
  | mark k n =>
    refine hsame rfl ?_
    have hget := get?_update s k h fun n => { n with marked := true }
    by_cases hh : h = k
    · rw [if_pos hh] at hget
      exact children_of_map hget (fun _ => rfl) (fun _ => rfl) name
    · rw [if_neg hh] at hget
      exact children_of_map (F := id) (by rw [hget, Option.map_id_fun, id]) (fun _ => rfl)
        (fun _ => rfl) name
  | clearMarks =>
    exact hsame rfl (children_of_map (get?_unmarked s h) (fun _ => rfl) (fun _ => rfl) name)
  | freeTree root n hn =>
    obtain ⟨p, hp, hslot⟩ := children_eq_ok_iff.1 hq
    have hplace := place_of_map (hs.get?_release hn (place_ok hp).1) (fun _ => rfl) name
    rw [hp] at hplace
    cases hold : s.place h name with
    | error e =>
      rw [hold] at hplace
      cases hplace
    | ok old =>
      rw [hold] at hplace
      cases hplace
      rw [Place.slot?, List.getElem?_map, Option.map_eq_some_iff] at hslot
      obtain ⟨slot, hslot, herase⟩ := hslot
      cases slot with
      | value text => cases herase
      | child node => cases herase
      | children nodes =>
        cases herase
        have hnodes := hr nodes (children_eq_ok_iff.2 ⟨old, hold, hslot⟩)
        rw [historyOf, replay, List.foldl_concat, ← replay, ← hnodes]
        exact nodes.erase_eq_undergo root

/-! ### Runs -/

theorem OK.recorded_run (hs : s.OK) {h : Handle} {name : String} {events : List (Event Handle)}
    (hr : s.Recorded h name events) (actions : List Action) :
    (s.run actions).2.Recorded h name (events ++ s.historyIn h name actions) := by
  induction actions generalizing s events with
  | nil => rwa [historyIn, List.append_nil]
  | cons a rest ih =>
    rw [historyIn, ← List.append_assoc]
    exact ih (hs.perform a) (hs.recorded_of_effect (s.perform_effect a) hr)

/-- No field of the store without nodes has children. -/
theorem recorded_empty (r : Registry) (h : Handle) (name : String) :
    (empty : Store r).Recorded h name [] := by
  intro q hq
  obtain ⟨p, hp, -⟩ := children_eq_ok_iff.1 hq
  have hnode := (place_ok hp).1
  rw [get?_empty] at hnode
  cases hnode

/-- **Sequences follow their histories.** A sequence to which any events lead holds what they leave, in
a buffer of the least capacity that this needs, and has no buffer if this is nothing. After every run
over any registry, the children of each field are such a sequence: the one to which the run leads that
adds children to the field, and takes those out whose trees are released. Two sequences are equal
exactly if they hold the same, whatever has happened to them, and whichever elements count as the same. -/
theorem sequences_run :
    (∀ (α : Type) (events : List (Event α)), (replay events).Follows events) ∧
    (∀ (r : Registry) (actions : List Action) (h : Handle) (name : String) (q : Sequence Handle),
      ((empty : Store r).run actions).2.children h name = .ok q →
        q = replay ((empty : Store r).historyIn h name actions) ∧
          q.Follows ((empty : Store r).historyIn h name actions)) ∧
    (∀ (α : Type) (events events' : List (Event α)),
      (replay events = replay events' ↔ (replay events).toList = (replay events').toList) ∧
        ∀ R, Alike R (replay events) (replay events') ↔
          List.Forall₂ R (replay events).toList (replay events').toList) := by
  refine ⟨fun α events => follows_replay events, ?_, ?_⟩
  · intro r actions h name q hq
    have hrecorded := OK.empty.recorded_run (recorded_empty r h name) actions q hq
    rw [List.nil_append] at hrecorded
    refine ⟨hrecorded, ?_⟩
    rw [hrecorded]
    exact follows_replay _
  · intro α events events'
    have htight := (follows_replay events).toTight
    have htight' := (follows_replay events').toTight
    exact ⟨htight.eq_iff htight', htight.alike_iff htight'⟩

end Store

end NodeSchema
