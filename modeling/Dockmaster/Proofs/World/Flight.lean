import Dockmaster.Proofs.World.Basic

/-!
# Where requests are

An operation makes one request at a time, each is served at most once, and what an operation hears
was served before (`World.coherent`). So the exchanges of an operation with the daemon are, in this
order, those that it has heard of, perhaps one that it has not heard of yet, and perhaps a request
that is not served yet.
-/

namespace Dockmaster.World

variable {σ : Type}

/-- **Where the requests of an operation are**: its flight, what it asked for, what was served, and
what was delivered. -/
inductive Sent : Option Flight → List Request → List Exchange → List Exchange → Prop
  /-- Every answer was delivered. -/
  | landed (delivered : List Exchange) :
      Sent none (delivered.map Exchange.request) delivered delivered
  /-- The last request is not served yet. -/
  | made (request : Request) (delivered : List Exchange) :
      Sent (some ⟨request, none⟩) (delivered.map Exchange.request ++ [request]) delivered delivered
  /-- The last answer is not delivered yet. -/
  | served (request : Request) (answers : Answers) (delivered : List Exchange) :
      Sent (some ⟨request, some answers⟩) (delivered.map Exchange.request ++ [request])
        (delivered ++ [⟨request, answers request⟩]) delivered

/-- **The invariant of one operation in a world.** -/
structure Coherent (w : World σ) (n : Nat) (asked : List Request) (served heard : List Exchange) :
    Prop where
  /-- The requests are where they should be, and what was heard was delivered. -/
  sent : ∃ delivered, Sent (w.flights n) asked served delivered ∧ heard <+: delivered ∧
    ∀ op, w.engine.find? n = some op →
      heard = delivered ∧ op.request? = (w.flights n).map (·.request)

theorem Sent.prefix_served {flight : Option Flight} {asked : List Request}
    {served delivered : List Exchange} (h : Sent flight asked served delivered) :
    delivered <+: served := by
  cases h with
  | landed => exact List.prefix_rfl
  | made => exact List.prefix_rfl
  | served request answers => exact List.prefix_append _ _

theorem Sent.prefix_asked {flight : Option Flight} {asked : List Request}
    {served delivered : List Exchange} (h : Sent flight asked served delivered) :
    served.map Exchange.request <+: asked := by
  cases h with
  | landed => exact List.prefix_rfl
  | made => exact List.prefix_append _ _
  | served request answers =>
    rw [List.map_append]
    exact List.prefix_rfl

theorem Coherent.prefix_served {w : World σ} {n : Nat} {asked : List Request}
    {served heard : List Exchange} (h : w.Coherent n asked served heard) : heard <+: served := by
  obtain ⟨delivered, hsent, hheard, -⟩ := h.sent
  exact hheard.trans hsent.prefix_served

theorem Coherent.prefix_asked {w : World σ} {n : Nat} {asked : List Request}
    {served heard : List Exchange} (h : w.Coherent n asked served heard) :
    served.map Exchange.request <+: asked := by
  obtain ⟨delivered, hsent, -, -⟩ := h.sent
  exact hsent.prefix_asked

/-- A request that is not served yet is the last that was asked for. -/
theorem Coherent.asked_of_flight {w : World σ} {n : Nat} {asked : List Request}
    {served heard : List Exchange} (h : w.Coherent n asked served heard) {request : Request}
    (hflight : w.flights n = some ⟨request, none⟩) :
    asked = served.map Exchange.request ++ [request] := by
  obtain ⟨delivered, hsent, -, -⟩ := h.sent
  rw [hflight] at hsent
  cases hsent with
  | made => rfl

theorem Sent.of_asked_nil {flight : Option Flight} {served delivered : List Exchange}
    (h : Sent flight [] served delivered) : flight = none ∧ served = [] ∧ delivered = [] := by
  generalize hnil : ([] : List Request) = asked at h
  cases h with
  | landed =>
    obtain rfl := List.map_eq_nil_iff.mp hnil.symm
    exact ⟨rfl, rfl, rfl⟩
  | made request => exact absurd hnil.symm (List.append_ne_nil_of_right_ne_nil _ (by simp))
  | served request => exact absurd hnil.symm (List.append_ne_nil_of_right_ne_nil _ (by simp))

/-- What is asked next is on its way once everything was delivered. -/
theorem Sent.next (next : Option Request) (delivered : List Exchange) :
    Sent (next.map fun request => ⟨request, none⟩)
      (delivered.map Exchange.request ++ next.toList) delivered delivered := by
  cases next with
  | none =>
    rw [Option.toList_none, List.append_nil]
    exact .landed delivered
  | some request => exact .made request delivered

/-- An operation of which everything was delivered makes its next request, if it has one. -/
theorem coherent_next {w : World σ} {n : Nat} {next : Option Operation}
    (hfind : w.engine.find? n = next)
    (hflight : w.flights n = (next.bind (·.request?)).map fun request => ⟨request, none⟩)
    (delivered : List Exchange) :
    w.Coherent n (delivered.map Exchange.request ++ (next.bind (·.request?)).toList) delivered
      delivered := by
  refine ⟨delivered, ?_, List.prefix_rfl, ?_⟩
  · rw [hflight]
    exact Sent.next _ delivered
  · intro op hop
    obtain rfl := hfind.symm.trans hop
    rw [hflight, Option.bind_some, Option.map_map]
    exact ⟨rfl, Option.map_id'.symm⟩

section Step

variable {w : World σ} {n : Nat} {asked : List Request} {served heard : List Exchange}

/-- The flight of an operation after an event of the engine. -/
theorem flights_drive (w : World σ) (event : Engine.Event) (n : Nat) (next : Option Request)
    (h : w.engine.asked n [event] = next.toList) :
    (w.drive event).flights n =
      (next.map fun request => (⟨request, none⟩ : Flight)).or (w.flights n) := by
  unfold drive
  dsimp only
  rw [h]
  cases next <;> rfl

/-- An event of the engine other than an answer keeps the invariant. -/
theorem Coherent.drive (h : w.Coherent n asked served heard) {event : Engine.Event}
    (hanswer : ∀ answers, event ≠ .answer n answers)
    (hfresh : event.begun? = some n → asked = []) :
    (w.drive event).Coherent n (asked ++ w.engine.asked n [event]) served
      (heard ++ w.engine.heard n [event]) := by
  obtain ⟨delivered, hsent, hheard, hlive⟩ := h.sent
  have move := Engine.move_step w.engine n event
  have hflight := flights_drive w event n
  have hfind : (w.drive event).engine.find? n = (w.engine.step event).1.find? n := rfl
  generalize (w.engine.step event).1.find? n = next, w.engine.asked n [event] = asks,
    w.engine.heard n [event] = hears at move hflight hfind ⊢
  cases move with
  | rests _ =>
    rw [List.append_nil, List.append_nil]
    have hsame : (w.drive event).flights n = w.flights n := hflight none rfl
    refine ⟨delivered, hsame.symm ▸ hsent, hheard, fun op hop => ?_⟩
    rw [hsame]
    exact hlive op (hfind.symm.trans hop)
  | begins op =>
    -- nothing was asked for before, so nothing is on its way
    obtain rfl : asked = [] := hfresh rfl
    obtain ⟨hnone, rfl, rfl⟩ := hsent.of_asked_nil
    obtain rfl := List.prefix_nil.mp hheard
    refine coherent_next hfind ?_ []
    rw [hflight op.request? rfl, hnone, Option.or_none]
    rfl
  | hears answers => exact absurd rfl (hanswer answers)
  | enters next live waits =>
    -- whoever waits for a lock has nothing on its way
    obtain ⟨rfl, hrequest⟩ := hlive _ live
    have hnone : w.flights n = none := Option.map_eq_none_iff.mp (hrequest.symm.trans waits)
    rw [hnone] at hsent
    cases hsent with
    | landed =>
      rw [List.append_nil]
      refine coherent_next hfind ?_ _
      rw [hflight next.request? rfl, hnone, Option.or_none]
      rfl
  | stops =>
    rw [List.append_nil, List.append_nil]
    have hsame : (w.drive (.cancel n)).flights n = w.flights n := hflight none rfl
    refine ⟨delivered, hsame.symm ▸ hsent, hheard, fun op hop => ?_⟩
    cases hfind.symm.trans hop

/-- The delivery of an answer keeps the invariant. -/
theorem Coherent.deliver (h : w.Coherent n asked served heard) {request : Request}
    {answers : Answers} (hflight : w.flights n = some ⟨request, some answers⟩) :
    ((w.setFlight n none).drive (.answer n answers)).Coherent n
      (asked ++ w.engine.asked n [.answer n answers]) served
      (heard ++ w.engine.heard n [.answer n answers]) := by
  obtain ⟨delivered, hsent, hheard, hlive⟩ := h.sent
  rw [hflight] at hsent
  have move := Engine.move_step w.engine n (.answer n answers)
  have hflights := flights_drive (w.setFlight n none) (.answer n answers) n
  have hcleared : (w.setFlight n none).flights n = none := if_pos rfl
  have hfind : ((w.setFlight n none).drive (.answer n answers)).engine.find? n =
      (w.engine.step (.answer n answers)).1.find? n := rfl
  have hengine : (w.setFlight n none).engine = w.engine := rfl
  rw [hengine] at hflights
  generalize (w.engine.step (.answer n answers)).1.find? n = next,
    w.engine.asked n [.answer n answers] = asks, w.engine.heard n [.answer n answers] = hears
    at move hflights hfind ⊢
  cases hsent with
  | served =>
    -- the last answer is delivered, to an operation that waits for it or to nobody
    cases move with
    | rests hidle =>
      -- the operation is not under way any more
      have hnone : w.engine.find? n = none := by
        apply Option.eq_none_iff_forall_ne_some.mpr
        intro op hop
        obtain ⟨-, hrequest⟩ := hlive op hop
        rw [hflight] at hrequest
        rcases hidle with hnumber | hidle
        · exact hnumber rfl
        · have hbind : (w.engine.find? n).bind (·.request?) = none := hidle
          rw [hop, Option.bind_some, hrequest] at hbind
          cases hbind
      rw [List.append_nil, List.append_nil]
      have hlanded := hflights none rfl
      rw [hcleared] at hlanded
      refine ⟨delivered ++ [Exchange.mk request (answers request)], ?_,
        hheard.trans (List.prefix_append _ _), fun op hop => ?_⟩
      · rw [hlanded]
        have hsent := Sent.landed (delivered ++ [Exchange.mk request (answers request)])
        rw [List.map_append] at hsent
        exact hsent
      · rw [hnone] at hfind
        cases hfind.symm.trans hop
    | @hears op asks answers next live hasks =>
      obtain ⟨rfl, hrequest⟩ := hlive op live
      rw [hflight, hasks] at hrequest
      obtain rfl : asks = request := Option.some.inj hrequest
      have hmap : heard.map Exchange.request ++ [asks] =
          (heard ++ [Exchange.mk asks (answers asks)]).map Exchange.request := by
        rw [List.map_append]
        rfl
      rw [hmap]
      refine coherent_next hfind ?_ _
      rw [hflights _ rfl, hcleared, Option.or_none]

/-- The service of a request keeps the invariant. -/
theorem Coherent.serve (h : w.Coherent n asked served heard) {request : Request}
    (hflight : w.flights n = some ⟨request, none⟩) (answers : Answers) (daemon : σ) :
    ({ w with daemon }.setFlight n (some ⟨request, some answers⟩)).Coherent n asked
      (served ++ [Exchange.mk request (answers request)]) heard := by
  obtain ⟨delivered, hsent, hheard, hlive⟩ := h.sent
  rw [hflight] at hsent
  have hserved : ({ w with daemon }.setFlight n (some ⟨request, some answers⟩)).flights n =
      some ⟨request, some answers⟩ := if_pos rfl
  cases hsent with
  | made =>
    refine ⟨served, ?_, hheard, ?_⟩
    · rw [hserved]
      exact .served request answers served
    · intro op hop
      rw [hserved]
      obtain ⟨hdelivered, hrequest⟩ := hlive op hop
      rw [hflight] at hrequest
      exact ⟨hdelivered, hrequest⟩

/-- What concerns the flight of another operation keeps the invariant. -/
theorem Coherent.setFlight_of_ne (h : w.Coherent n asked served heard) {k : Nat} (hk : n ≠ k)
    (flight : Option Flight) (daemon : σ) :
    ({ w with daemon }.setFlight k flight).Coherent n asked served heard := by
  have hsame : ({ w with daemon }.setFlight k flight).flights n = w.flights n := if_neg hk
  obtain ⟨delivered, hsent, hheard, hlive⟩ := h.sent
  refine ⟨delivered, hsame.symm ▸ hsent, hheard, fun op hop => ?_⟩
  rw [hsame]
  exact hlive op hop

end Step

/-! ### The invariant in every run -/

section Run

variable (server : Operation.Server σ)

theorem asked_singleton (w : World σ) (n : Nat) (event : Event) :
    w.asked server n [event] = w.engine.asked n (w.engineEvent? event).toList := by
  unfold asked
  rw [engineEvents_singleton]

theorem heard_singleton (w : World σ) (n : Nat) (event : Event) :
    w.heard server n [event] = w.engine.heard n (w.engineEvent? event).toList := by
  unfold heard
  rw [engineEvents_singleton]

theorem served_singleton (w : World σ) (n : Nat) (event : Event) :
    w.served server n [event] =
      ((w.service? server event).toList.filter (·.number = n)).map (·.exchange) := by
  unfold served
  rw [services_singleton]

/-- **One event keeps the invariant.** -/
theorem Coherent.step {w : World σ} {n : Nat} {asked : List Request} {served heard : List Exchange}
    (h : w.Coherent n asked served heard) (event : Event)
    (hfresh : ∀ op, event = .begin n op → asked = []) :
    (w.step server event).Coherent n (asked ++ w.asked server n [event])
      (served ++ w.served server n [event]) (heard ++ w.heard server n [event]) := by
  rw [asked_singleton, heard_singleton, served_singleton]
  have turn := turn_step server w event
  generalize w.step server event = after, w.engineEvent? event = driven,
    w.service? server event = service at turn ⊢
  cases turn with
  | begun k op =>
    rw [Option.toList_none, List.filter_nil, List.map_nil, List.append_nil]
    refine h.drive (fun _ => nofun) fun hbegun => hfresh op ?_
    rw [Option.some.inj hbegun]
  | @served k request fault flight =>
    show Coherent _ n (asked ++ []) _ (heard ++ [])
    rw [List.append_nil, List.append_nil]
    by_cases hk : k = n
    · subst hk
      have hserve := h.serve flight (attend server w.daemon fault request).2
        (attend server w.daemon fault request).1
      simpa using hserve
    · have hother := h.setFlight_of_ne (Ne.symm hk)
        (some ⟨request, some (attend server w.daemon fault request).2⟩)
        (attend server w.daemon fault request).1
      simpa [hk] using hother
  | @delivered k request answers flight =>
    rw [Option.toList_none, List.filter_nil, List.map_nil, List.append_nil]
    by_cases hk : k = n
    · subst hk
      exact h.deliver flight
    · -- the flight of another operation ends, and the engine tells that one its answer
      have hother := h.setFlight_of_ne (Ne.symm hk) none w.daemon
      refine hother.drive (fun _ heq => hk ?_) nofun
      exact (Engine.Event.answer.inj heq).1
  | idle event =>
    show w.Coherent n (asked ++ []) (served ++ []) (heard ++ [])
    rw [List.append_nil, List.append_nil, List.append_nil]
    exact h
  | looked k =>
    rw [Option.toList_none, List.filter_nil, List.map_nil, List.append_nil]
    exact h.drive (fun _ => nofun) nofun
  | cancelled k =>
    rw [Option.toList_none, List.filter_nil, List.map_nil, List.append_nil]
    exact h.drive (fun _ => nofun) nofun

/-- **The invariant holds in every legal run.** -/
theorem coherent_after (guard : Guard) (daemon : σ) {events : List Event}
    (legal : (start guard daemon).Legal server events) (n : Nat) :
    ((start guard daemon).after server events).Coherent n
      ((start guard daemon).asked server n events) ((start guard daemon).served server n events)
      ((start guard daemon).heard server n events) := by
  induction events using List.reverseRecOn with
  | nil =>
    refine ⟨[], .landed [], List.prefix_rfl, fun op hop => ?_⟩
    cases hop
  | append_singleton past event ih =>
    rw [after_append, asked_append, served_append, heard_append]
    apply (ih legal.of_append).step server event
    -- the numbers are new, so an operation that begins has asked for nothing
    rintro op rfl
    have hlegal :
        Engine.Legal ((start guard daemon).engineEvents server past ++ [.begin n op]) := by
      have h := legal
      unfold Legal at h
      rw [engineEvents_append, engineEvents_singleton] at h
      exact h
    exact (Engine.share_of_not_begins guard n hlegal.not_begins).2.1

end Run

end Dockmaster.World
