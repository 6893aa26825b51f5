import Dockmaster.Proofs.Operation.Plan

/-!
# The course of an update

How far an update has got with its plan (`Course`): it waits for its lock after the first call, or
has asked for a call and waits for the answer, or has ended with the verdict on a call, or has
passed the last one. What it asked for, heard and returned can be read off:

- `Course.asked_isPrefix`: it asks for the calls of its plan in turn.
- `Course.passes_iff`: it goes past a call exactly if the plan goes on after the answer.
- `Course.mem_returned_iff`: its result is the verdict on the call that it ended with, or the id of
  the replacement that was started.
- `Course.reported`: an error names the step that failed, and wraps the failure once.
-/

namespace Dockmaster

namespace Lifecycle

/-- **How far an update has got** with its plan, by what it has asked for, heard and returned;
`waits` says that it waits for its lock. -/
inductive Course (calls : List Call) (newId : String) (waits : Prop) :
    List Request → List Exchange → List Outcome → Prop
  /-- It has passed the first call, and waits for its lock. -/
  | waiting {call : Call} {left : List Call} {exchange : Exchange}
      (at_ : At calls [exchange] call left) (lock : waits) :
      Course calls newId waits [exchange.request] [exchange] []
  /-- It waits for the answer to a call. -/
  | asking {call : Call} {left : List Call} {heard : List Exchange}
      (at_ : At calls heard call left) :
      Course calls newId waits (heard.map Exchange.request ++ [call.request]) heard []
  /-- It has ended with the verdict on a call. -/
  | failed {call : Call} {left : List Call} {heard : List Exchange} {exchange : Exchange}
      {e : ServiceError} (at_ : At calls heard call left)
      (about : exchange.request = call.request) (verdict : call.verdict exchange = some e)
      (free : ¬ waits) :
      Course calls newId waits (heard.map Exchange.request ++ [call.request])
        (heard ++ [exchange]) [.error e]
  /-- It has passed the last call. -/
  | succeeded {call : Call} {heard : List Exchange} {exchange : Exchange}
      (at_ : At calls heard call []) (passes : call.Passes exchange) :
      Course calls newId waits (heard.map Exchange.request ++ [call.request])
        (heard ++ [exchange]) [.ok (.id newId)]

section Course

variable {calls left : List Call} {call : Call} {newId : String} {waits : Prop}
  {asked : List Request} {heard : List Exchange} {returned : List Outcome}

/-! ### What was asked for -/

theorem requests_of_passed {done : List Call} (h : List.Forall₂ Call.Passes done heard) :
    heard.map Exchange.request = done.map Call.request := by
  induction h with
  | nil => rfl
  | cons passes _ ih => rw [List.map_cons, List.map_cons, passes.1, ih]

theorem At.isPrefix (h : At calls heard call left) :
    heard.map Exchange.request ++ [call.request] <+: calls.map Call.request := by
  obtain ⟨done, rfl, hpassed⟩ := h
  rw [requests_of_passed hpassed, List.map_append, List.map_cons]
  exact ⟨left.map Call.request, by simp only [List.append_assoc, List.cons_append,
    List.nil_append]⟩

/-- **An update asks for the calls of its plan in turn.** -/
theorem Course.asked_isPrefix (course : Course calls newId waits asked heard returned) :
    asked <+: calls.map Call.request := by
  cases course with
  | waiting at_ lock => exact (List.prefix_append _ _).trans at_.isPrefix
  | asking at_ => exact at_.isPrefix
  | failed at_ about verdict free => exact at_.isPrefix
  | succeeded at_ passes => exact at_.isPrefix

/-- An update asks for one call at a time. -/
theorem Course.heard_isPrefix (course : Course calls newId waits asked heard returned) :
    heard.map Exchange.request <+: asked ∧ asked.length ≤ heard.length + 1 := by
  cases course with
  | waiting at_ lock => exact ⟨List.prefix_rfl, by simp⟩
  | asking at_ => exact ⟨List.prefix_append _ _, by simp⟩
  | failed at_ about verdict free =>
    rw [List.map_append, List.map_singleton, about]
    exact ⟨List.prefix_rfl, by simp⟩
  | succeeded at_ passes =>
    rw [List.map_append, List.map_singleton, passes.1]
    exact ⟨List.prefix_rfl, by simp⟩

/-! ### Going on -/

theorem At.verdict_eq_none (h : At calls heard call left) {i : Nat} {c : Call}
    {exchange : Exchange} (hc : calls[i]? = some c) (hexchange : heard[i]? = some exchange) :
    c.verdict exchange = none := by
  obtain ⟨done, rfl, hpassed⟩ := h
  obtain ⟨hi, rfl⟩ := List.getElem?_eq_some_iff.mp hexchange
  have hlength := hpassed.length_eq
  rw [List.getElem?_append_left (by omega)] at hc
  obtain ⟨hi', rfl⟩ := List.getElem?_eq_some_iff.mp hc
  exact (hpassed.get hi' hi).2

theorem At.getElem?_length (h : At calls heard call left) :
    calls[heard.length]? = some call := by
  obtain ⟨done, rfl, hpassed⟩ := h
  rw [← hpassed.length_eq, List.getElem?_append_right le_rfl, Nat.sub_self]
  rfl

/-- An exchange is either before the last one, or the last one. -/
theorem At.getElem?_concat (h : At calls heard call left) {last exchange : Exchange} {i : Nat}
    {c : Call} (hc : calls[i]? = some c) (hexchange : (heard ++ [last])[i]? = some exchange) :
    (i < heard.length ∧ c.verdict exchange = none) ∨
      (i = heard.length ∧ c = call ∧ exchange = last) := by
  have hi := (List.getElem?_eq_some_iff.mp hexchange).1
  rw [List.length_append, List.length_singleton] at hi
  rcases Nat.lt_or_eq_of_le (Nat.le_of_lt_succ hi) with hlt | rfl
  · rw [List.getElem?_append_left hlt] at hexchange
    exact .inl ⟨hlt, h.verdict_eq_none hc hexchange⟩
  · rw [h.getElem?_length] at hc
    rw [List.getElem?_concat_length] at hexchange
    exact .inr ⟨rfl, (Option.some.inj hc).symm, (Option.some.inj hexchange).symm⟩

/-- **An update goes past a call exactly if the plan goes on after the answer**: it asks for the
next one, or waits for its lock, or is over with success. -/
theorem Course.passes_iff (course : Course calls newId waits asked heard returned) {i : Nat}
    {c : Call} {exchange : Exchange} (hc : calls[i]? = some c)
    (hexchange : heard[i]? = some exchange) :
    c.verdict exchange = none ↔
      i + 1 < asked.length ∨ (i = 0 ∧ waits) ∨ returned = [.ok (.id newId)] := by
  have hi : i < heard.length := (List.getElem?_eq_some_iff.mp hexchange).1
  cases course with
  | waiting at_ lock =>
    obtain rfl : i = 0 := by simpa using hi
    exact iff_of_true (at_.verdict_eq_none hc hexchange) (.inr (.inl ⟨rfl, lock⟩))
  | asking at_ =>
    exact iff_of_true (at_.verdict_eq_none hc hexchange) (.inl (by simpa using hi))
  | @failed call left heard last e at_ about verdict free =>
    rcases at_.getElem?_concat hc hexchange with ⟨hlt, hnone⟩ | ⟨rfl, rfl, rfl⟩
    · exact iff_of_true hnone (.inl (by simpa using hlt))
    · -- the last answer is the one that ended the update
      apply iff_of_false
      · rw [verdict]
        exact Option.some_ne_none e
      · rintro (hlt | ⟨-, hwaits⟩ | hok)
        · simp at hlt
        · exact free hwaits
        · cases hok
  | @succeeded call heard last at_ passes =>
    refine iff_of_true ?_ (.inr (.inr rfl))
    rcases at_.getElem?_concat hc hexchange with ⟨-, hnone⟩ | ⟨-, rfl, rfl⟩
    · exact hnone
    · exact passes.2

end Course

/-! ### The result -/

section Result

variable {guard : Guard} {reference : String} {first info : InspectRecord} {newId : String}
  {left : List Call} {call : Call} {waits : Prop} {asked : List Request} {heard : List Exchange}
  {returned : List Outcome}

/-- The replacement is started last, and nothing is started before. -/
theorem plan_concat (guard : Guard) (reference : String) (first info : InspectRecord)
    (newId : String) :
    ∃ opening target, plan guard reference first info newId =
        opening ++ [.start target newId] ∧
      ∀ c ∈ opening, ∀ id, c.request ≠ .start id := by
  rw [plan_eq]
  refine ⟨_ ++ _, _, (List.append_assoc ..).symm, ?_⟩
  intro c hmem id
  simp only [List.mem_append, List.mem_cons, List.not_mem_nil, or_false, List.mem_map] at hmem
  rcases hmem with (rfl | rfl | rfl | rfl | rfl | rfl) | ⟨network, -, rfl⟩ <;> exact nofun

theorem request_mem_of_passed {done : List Call} (h : List.Forall₂ Call.Passes done heard)
    {exchange : Exchange} (hmem : exchange ∈ heard) :
    ∃ c ∈ done, c.Passes exchange := by
  induction h with
  | nil => cases hmem
  | @cons c e done heard passes _ ih =>
    rcases List.mem_cons.mp hmem with rfl | hmem
    · exact ⟨c, List.mem_cons_self, passes⟩
    · obtain ⟨c', hc', hpasses⟩ := ih hmem
      exact ⟨c', List.mem_cons_of_mem _ hc', hpasses⟩

/-- Before an update is at its last call, it has heard of no start. -/
theorem At.not_started (h : At (plan guard reference first info newId) heard call left)
    {exchange : Exchange} (hmem : exchange ∈ heard) (id : String) :
    exchange.request ≠ .start id := by
  obtain ⟨done, hsplit, hpassed⟩ := h
  obtain ⟨opening, target, hplan, hopening⟩ := plan_concat guard reference first info newId
  -- what is done lies before the last call
  have hdone : done <+: opening := by
    have hlength := congrArg List.length (hplan.symm.trans hsplit)
    simp only [List.length_append, List.length_cons, List.length_nil] at hlength
    exact List.prefix_of_prefix_length_le ⟨_, hsplit.symm⟩ ⟨_, hplan.symm⟩ (by omega)
  obtain ⟨c, hc, hpasses⟩ := request_mem_of_passed hpassed hmem
  rw [hpasses.1]
  exact hopening c (hdone.subset hc) id

theorem At.eq_start (h : At (plan guard reference first info newId) heard call []) :
    ∃ target, call = .start target newId := by
  obtain ⟨done, hsplit, -⟩ := h
  obtain ⟨opening, target, hplan, -⟩ := plan_concat guard reference first info newId
  have hlast := (List.append_inj' (hsplit.symm.trans hplan) rfl).2
  exact ⟨target, (List.cons.inj hlast).1⟩

theorem At.mem (h : At (plan guard reference first info newId) heard call left) :
    call ∈ plan guard reference first info newId := by
  obtain ⟨done, hsplit, -⟩ := h
  rw [hsplit]
  exact List.mem_append_right _ List.mem_cons_self

/-- A start that succeeds is not what an update fails with. -/
theorem verdict_of_started (mem : call ∈ plan guard reference first info newId) {id : String}
    (about : call.request = .start id) : call.verdict ⟨.start id, .ok ()⟩ = none := by
  obtain ⟨opening, target, hplan, hopening⟩ := plan_concat guard reference first info newId
  rw [hplan] at mem
  rcases List.mem_append.mp mem with hmem | hmem
  · exact absurd about (hopening call hmem id)
  · rw [List.mem_singleton.mp hmem]
    rfl

theorem passes_start {target : Target} {exchange : Exchange}
    (h : (Call.start target newId).Passes exchange) : exchange = ⟨.start newId, .ok ()⟩ := by
  obtain ⟨request, answer⟩ := exchange
  obtain ⟨rfl, hverdict⟩ := h
  cases answer with
  | ok reply => rfl
  | error fault => cases hverdict

/-- **The result of an update**: it returns the id of the replacement exactly if it has heard that
the replacement was started, and an error exactly if this is the verdict of its plan on an
answer. -/
theorem Course.mem_returned_iff
    (course : Course (plan guard reference first info newId) newId waits asked heard returned)
    {outcome : Outcome} :
    outcome ∈ returned ↔
      (outcome = .ok (.id newId) ∧ ⟨.start newId, .ok ()⟩ ∈ heard) ∨
        ∃ (i : Nat) (c : Call) (exchange : Exchange) (e : ServiceError),
          (plan guard reference first info newId)[i]? = some c ∧ heard[i]? = some exchange ∧
            c.verdict exchange = some e ∧ outcome = .error e := by
  -- an update that has not ended has not failed, for it has gone past every call it heard of
  have hgoes {i : Nat} {c : Call} {exchange : Exchange} {e : ServiceError}
      (hc : (plan guard reference first info newId)[i]? = some c)
      (hexchange : heard[i]? = some exchange) (hverdict : c.verdict exchange = some e) :
      ¬ (i + 1 < asked.length ∨ (i = 0 ∧ waits) ∨ returned = [.ok (.id newId)]) := by
    rw [← course.passes_iff hc hexchange, hverdict]
    exact Option.some_ne_none e
  cases course with
  | @waiting call left exchange at_ lock =>
    refine iff_of_false List.not_mem_nil ?_
    rintro (⟨-, hmem⟩ | ⟨i, c, exchange, e, hc, hexchange, hverdict, -⟩)
    · exact at_.not_started hmem newId rfl
    · have hi := (List.getElem?_eq_some_iff.mp hexchange).1
      exact hgoes hc hexchange hverdict (.inr (.inl ⟨by simpa using hi, lock⟩))
  | @asking call left heard at_ =>
    refine iff_of_false List.not_mem_nil ?_
    rintro (⟨-, hmem⟩ | ⟨i, c, exchange, e, hc, hexchange, hverdict, -⟩)
    · exact at_.not_started hmem newId rfl
    · have hi := (List.getElem?_eq_some_iff.mp hexchange).1
      exact hgoes hc hexchange hverdict (.inl (by simpa using hi))
  | @failed call left heard last e at_ about verdict free =>
    rw [List.mem_singleton]
    constructor
    · rintro rfl
      exact .inr ⟨_, call, last, e, at_.getElem?_length, List.getElem?_concat_length, verdict, rfl⟩
    · rintro (⟨-, hmem⟩ | ⟨i, c, exchange, e', hc, hexchange, hverdict, rfl⟩)
      · rcases List.mem_append.mp hmem with hmem | hmem
        · exact absurd rfl (at_.not_started hmem newId)
        · obtain rfl := List.mem_singleton.mp hmem
          rw [verdict_of_started at_.mem about.symm] at verdict
          cases verdict
      · rcases at_.getElem?_concat hc hexchange with ⟨-, hnone⟩ | ⟨-, rfl, rfl⟩
        · rw [hnone] at hverdict
          cases hverdict
        · rw [verdict] at hverdict
          rw [Option.some.inj hverdict]
  | @succeeded call heard last at_ passes =>
    obtain ⟨target, rfl⟩ := at_.eq_start
    obtain rfl := passes_start passes
    rw [List.mem_singleton]
    constructor
    · rintro rfl
      exact .inl ⟨rfl, List.mem_append_right _ (List.mem_singleton_self _)⟩
    · rintro (⟨rfl, -⟩ | ⟨i, c, exchange, e, hc, hexchange, hverdict, -⟩)
      · rfl
      · exact absurd (.inr (.inr rfl)) (hgoes hc hexchange hverdict)

/-- **The error of an update** is about the last answer that it has heard. -/
theorem Course.reported
    (course : Course (plan guard reference first info newId) newId waits asked heard returned)
    {e : ServiceError} (h : .error e ∈ returned) :
    ∃ exchange, heard.getLast? = some exchange ∧
      Reported guard reference first info exchange e := by
  cases course with
  | waiting at_ lock => cases h
  | asking at_ => cases h
  | @failed call left heard last e' at_ about verdict free =>
    obtain rfl := Except.error.inj (List.mem_singleton.mp h)
    exact ⟨last, List.getLast?_concat, .of_verdict at_.mem about verdict⟩
  | succeeded at_ passes => cases List.mem_singleton.mp h

end Result

end Lifecycle

end Dockmaster
