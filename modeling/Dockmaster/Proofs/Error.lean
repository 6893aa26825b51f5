import Dockmaster.Error
import Mathlib.Logic.ExistsUnique

/-!
# Wrapped errors

A failed step of an update wraps the failure that it met with, and the result may be wrapped again.
Every error is a plain one, which wraps nothing, with some layers around it, and in one way only
(`existsUnique_wrap`).  So what `wrap` does to a plain error tells what can be seen of any error.

`Descends` is the chain of the errors below an error, one direct source after the other.  `sources`
is the only such chain (`descends_iff`), and it is as long as there are layers.  `wrap_observed` puts
together what is seen from outside: root, predicates and chain do not depend on what the layers say,
and the text names the layers one after another, the outermost first.
-/

namespace Dockmaster.ServiceError

variable {e : ServiceError}

/-- What a layer puts before the text of the error inside it. -/
def heading (layer : String × UpdateStage) : String :=
  "Failed to update container " ++ layer.1 ++ " during " ++ layer.2.name ++ ": "

/-- The layers around the root of an error, the outermost first. -/
def layers : ServiceError → List (String × UpdateStage)
  | .updateFailed container stage source => (container, stage) :: source.layers
  | _ => []

/-- **The way down from an error**: the errors below it, each the direct source of the one before it,
as far as there are any. -/
inductive Descends : ServiceError → List ServiceError → Prop
  /-- There is nothing below a plain error. -/
  | plain {e : ServiceError} (plain : e.source? = none) : Descends e []
  /-- The direct source comes first, and then what is below it. -/
  | wrapped {e source : ServiceError} {chain : List ServiceError} (direct : e.source? = some source)
      (rest : Descends source chain) : Descends e (source :: chain)

/-! ### One way to take an error apart -/

theorem wrap_cons (layer : String × UpdateStage) (layers : List (String × UpdateStage))
    (e : ServiceError) :
    wrap (layer :: layers) e = .updateFailed layer.1 layer.2 (wrap layers e) := rfl

/-- A plain error is its own root, with no layer around it and nothing below. -/
theorem of_plain (plain : e.source? = none) : e.root = e ∧ e.layers = [] ∧ e.sources = [] := by
  cases e with
  | updateFailed container stage source => cases plain
  | _ => exact ⟨rfl, rfl, rfl⟩

/-- **The root wraps nothing.** -/
theorem source?_root (e : ServiceError) : e.root.source? = none := by
  induction e with
  | updateFailed container stage source ih => exact ih
  | _ => rfl

/-- **An error is its root in its layers.** -/
theorem wrap_layers_root (e : ServiceError) : wrap e.layers e.root = e := by
  induction e with
  | updateFailed container stage source ih =>
    exact congrArg (ServiceError.updateFailed container stage) ih
  | _ => rfl

theorem root_wrap (layers : List (String × UpdateStage)) (e : ServiceError) :
    (wrap layers e).root = e.root := by
  induction layers with
  | nil => rfl
  | cons layer layers ih => exact ih

theorem layers_wrap (layers : List (String × UpdateStage)) (e : ServiceError) :
    (wrap layers e).layers = layers ++ e.layers := by
  induction layers with
  | nil => rfl
  | cons layer layers ih => exact congrArg (layer :: ·) ih

/-- **Every error is a plain error in some layers, and in one way only.** -/
theorem existsUnique_wrap (x : ServiceError) :
    ∃! parts : List (String × UpdateStage) × ServiceError,
      parts.2.source? = none ∧ wrap parts.1 parts.2 = x := by
  refine ⟨(x.layers, x.root), ⟨source?_root x, wrap_layers_root x⟩, ?_⟩
  rintro ⟨layers, e⟩ ⟨plain, rfl⟩
  obtain ⟨hroot, hlayers, -⟩ := of_plain plain
  rw [layers_wrap, root_wrap, hlayers, hroot, List.append_nil]

/-! ### What callers ask -/

theorem isNotFound_wrap (layers : List (String × UpdateStage)) (e : ServiceError) :
    (wrap layers e).isNotFound = e.isNotFound := by
  rw [isNotFound, root_wrap, ← isNotFound]

theorem isBlacklisted_wrap (layers : List (String × UpdateStage)) (e : ServiceError) :
    (wrap layers e).isBlacklisted = e.isBlacklisted := by
  rw [isBlacklisted, root_wrap, ← isBlacklisted]

/-- A failed step is a refusal if the failure below it is one. -/
@[simp] theorem isBlacklisted_updateFailed (container : String) (stage : UpdateStage)
    (source : ServiceError) :
    (updateFailed container stage source).isBlacklisted = source.isBlacklisted :=
  isBlacklisted_wrap [(container, stage)] source

/-! ### What is below -/

theorem descends_sources (e : ServiceError) : e.Descends e.sources := by
  induction e with
  | updateFailed container stage source ih => exact .wrapped rfl ih
  | _ => exact .plain rfl

/-- **There is one way down.** -/
theorem descends_iff {chain : List ServiceError} : e.Descends chain ↔ chain = e.sources := by
  constructor
  · intro h
    induction h with
    | plain plain => exact (of_plain plain).2.2.symm
    | @wrapped e source chain direct rest ih =>
      cases e with
      | updateFailed container stage inner =>
        obtain rfl := Option.some.inj direct
        exact congrArg (inner :: ·) ih
      | _ => cases direct
  · rintro rfl
    exact descends_sources e

theorem length_sources_wrap (layers : List (String × UpdateStage)) (e : ServiceError) :
    (wrap layers e).sources.length = layers.length + e.sources.length := by
  induction layers with
  | nil => exact (Nat.zero_add _).symm
  | cons layer layers ih =>
    rw [wrap_cons, sources, List.length_cons, List.length_cons, ih, Nat.add_right_comm]

/-! ### What is written -/

theorem message_wrap (layers : List (String × UpdateStage)) (e : ServiceError) :
    (wrap layers e).message = String.join (layers.map heading) ++ e.message := by
  induction layers with
  | nil => exact String.empty_append.symm
  | cons layer layers ih =>
    calc (wrap (layer :: layers) e).message
        = heading layer ++ (wrap layers e).message := rfl
      _ = String.join ((layer :: layers).map heading) ++ e.message := by
        rw [ih, List.map_cons, String.join_cons, String.append_assoc]

/-! ### Failures of the daemon -/

/-- The failure of the daemon is a first cause: there is no error below it. -/
theorem source?_ofFault (fault : DaemonFault) : (ofFault fault).source? = none := by
  unfold ofFault
  split <;> rfl

/-- A failure of the daemon is no refusal. -/
@[simp] theorem isBlacklisted_ofFault (fault : DaemonFault) :
    (ofFault fault).isBlacklisted = false := by
  unfold ofFault
  split <;> rfl

/-- **Not found at any depth** is what the daemon answered with status 404, whichever steps the
failure has passed through. -/
theorem isNotFound_wrap_ofFault (layers : List (String × UpdateStage)) (fault : DaemonFault) :
    (wrap layers (ofFault fault)).isNotFound = true ↔
      ∃ message, fault = .response 404 message := by
  rw [isNotFound_wrap]
  unfold ofFault
  split
  case h_1 message => exact iff_of_true rfl ⟨message, rfl⟩
  case h_2 | h_3 => exact iff_of_false nofun (by rintro ⟨_, h⟩; cases h)
  case h_4 hresponse _ _ =>
    refine iff_of_false nofun ?_
    rintro ⟨message, rfl⟩
    exact hresponse message rfl

/-! ### All together -/

/-- **What can be seen of a wrapped error.**  However many layers there are around a plain error: its
root is that error, it is not found or refused exactly if that error is, the way down from it has as
many steps as there are layers, and its text is what the layers say, the outermost first, followed by
the text of that error. -/
theorem wrap_observed (layers : List (String × UpdateStage)) (e : ServiceError)
    (plain : e.source? = none) :
    (wrap layers e).root = e ∧
    (wrap layers e).isNotFound = e.isNotFound ∧
    (wrap layers e).isBlacklisted = e.isBlacklisted ∧
    (∃! chain, (wrap layers e).Descends chain) ∧
    (∀ chain, (wrap layers e).Descends chain → chain.length = layers.length) ∧
    (wrap layers e).message =
      String.join (layers.map fun layer =>
        "Failed to update container " ++ layer.1 ++ " during " ++ layer.2.name ++ ": ") ++
      e.message := by
  obtain ⟨hroot, -, hsources⟩ := of_plain plain
  refine ⟨(root_wrap layers e).trans hroot, isNotFound_wrap layers e,
    isBlacklisted_wrap layers e,
    ⟨_, descends_sources _, fun chain hchain => descends_iff.mp hchain⟩, fun chain hchain => ?_,
    message_wrap layers e⟩
  rw [descends_iff.mp hchain, length_sources_wrap, hsources, List.length_nil, Nat.add_zero]

/-- A failure of the registry in two layers. -/
theorem wrap_observed_twice :
    (wrap [("web", .create), ("api", .pull)] (.notFound "manifest unknown")).root =
      .notFound "manifest unknown" ∧
    (wrap [("web", .create), ("api", .pull)] (.notFound "manifest unknown")).isNotFound = true ∧
    (wrap [("web", .create), ("api", .pull)] (.notFound "manifest unknown")).isBlacklisted =
      false ∧
    (∀ chain, (wrap [("web", .create), ("api", .pull)] (.notFound "manifest unknown")).Descends
      chain → chain.length = 2) ∧
    (wrap [("web", .create), ("api", .pull)] (.notFound "manifest unknown")).message =
      "Failed to update container web during create: " ++
      "Failed to update container api during pull: Resource Not Found: manifest unknown" := by
  obtain ⟨hroot, hfound, hrefused, -, hlength, hmessage⟩ :=
    wrap_observed [("web", .create), ("api", .pull)] (.notFound "manifest unknown") rfl
  exact ⟨hroot, hfound, hrefused, hlength, hmessage.trans (by decide +kernel)⟩

end Dockmaster.ServiceError
