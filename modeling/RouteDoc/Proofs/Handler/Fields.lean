/-
  What code can say about a route.

  1. **The rules** — every call gives a response without description, a body, or a parameter of which only
     place and name are known (`fills_infer`).
  2. **The walk** — `Walk.Fills`: all fields that were collected only fill gaps. They are what the calls
     say.
-/
import RouteDoc.Proofs.Handler.Walk
import RouteDoc.Proofs.Route.Filling

namespace RouteDoc.Handler

/-! ## The rules -/

theorem fills_extractResponse {c : Call} {fields : List Field} (h : extractResponse c = some fields) :
    ∀ f ∈ fields, f.Fills := by
  rw [extractResponse] at h
  split at h
  · injection h with h
    subst h
    intro f hf
    rw [List.mem_singleton.mp hf]
    exact .response _ _ _
  · injection h with h
    subst h
    intro f hf
    rw [List.mem_singleton.mp hf]
    exact .response _ _ _

theorem fills_extractReceive {c : Call} {fields : List Field} (h : extractReceive c = some fields) :
    ∀ f ∈ fields, f.Fills := by
  obtain ⟨b, -, rfl⟩ := Option.map_eq_some_iff.mp h
  intro f hf
  rw [List.mem_singleton.mp hf]
  exact .body _

/-- No argument names a parameter by a number. -/
theorem key?_ne_int {arg : Arg} {name : Term} (h : arg.key? = some name) (n : Int) : name ≠ .int n := by
  rintro rfl
  cases arg <;> exact nomatch h

theorem fills_extractParameter {place : Place} {c : Call} {fields : List Field}
    (h : extractParameter place c = some fields) : ∀ f ∈ fields, f.Fills := by
  rw [extractParameter] at h
  split at h
  · obtain ⟨name, hname, rfl⟩ := Option.map_eq_some_iff.mp h
    intro f hf
    rw [List.mem_singleton.mp hf]
    exact .parameter place (key?_ne_int hname)
  · exact nomatch h

/-- **Every call only fills gaps.** -/
theorem fills_infer (c : Call) : ∀ f ∈ (infer c).1, f.Fills := by
  intro f hf
  obtain ⟨fields, hmem, hextract⟩ := exists_extract_of_mem_infer hf
  rcases hextract with hextract | hextract | ⟨place, hextract⟩
  · exact fills_extractResponse hextract f hmem
  · exact fills_extractReceive hextract f hmem
  · exact fills_extractParameter hextract f hmem

/-! ## The walk -/

/-- All that was collected only fills gaps. -/
def Walk.Fills (w : Walk) : Prop :=
  ∀ f ∈ w.fields, f.Fills

/-- **The walk only collects what fills gaps.** -/
theorem fills_walkFunction (index : Index) (f : Function) : (walkFunction index f).Fills :=
  forall_walkFunction fills_infer index f

theorem fills_walkClosure (index : Index) (module : String) (c : Router.Closure) :
    (walkClosure index module c).Fills :=
  forall_walkClosure fills_infer index module c

end RouteDoc.Handler
