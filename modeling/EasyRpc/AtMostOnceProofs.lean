import EasyRpc.TransitionProofs
import Mathlib.Logic.Function.Basic

/-! # At most once — remote calls as their callers should see them

    The abstract service knows neither frames nor threads.  A call is invoked, may be executed
    once, and ends once: it is handed the answer of its own execution, or it fails.  A failed call
    may have been executed or not, and may yet be.

    An implementation whose steps map to these steps inherits what holds of every run here:
    `served_of_reachable`, where an answer comes from, and `Later`, what never changes again. -/

namespace AtMostOnce

open Transition

variable {Id Req Found Out Res : Type} [DecidableEq Id]

/-- What the caller knows of his call. -/
inductive Status (Res : Type) where
  | waiting
  | returned (res : Res)
  | failed

/-- A call, with what its execution came to. -/
structure Call (Req Out Res : Type) where
  request : Req
  -- the outcome of its execution, if it has been executed
  executed : Option Out
  status : Status Res

/-- What a service does: the outcome of a request, given what its execution finds (`none` where
    the service refuses it), and what a caller is handed of an outcome. -/
structure Service (Req Found Out Res : Type) where
  serve : Req → Found → Option Out
  answer : Out → Option Res

/-- The calls made so far, by their names. -/
abbrev Calls (Id Req Out Res : Type) := Id → Option (Call Req Out Res)

/-- Calling, executing, and the two ways in which a call ends for its caller. -/
inductive Act (Id Req Found : Type) where
  | invoke (k : Id) (request : Req)
  | execute (k : Id) (found : Found)
  | reply (k : Id)
  | fail (k : Id)

/-- One step. A call executes once at the most, and a reply needs an execution that replies. -/
def step (service : Service Req Found Out Res) (calls : Calls Id Req Out Res) :
    Act Id Req Found → Option (Calls Id Req Out Res)
  | .invoke k request =>
      match calls k with
      | none => some (Function.update calls k (some ⟨request, none, .waiting⟩))
      | some _ => none
  | .execute k found =>
      match calls k with
      | some ⟨request, none, status⟩ =>
          (service.serve request found).map fun out =>
            Function.update calls k (some ⟨request, some out, status⟩)
      | _ => none
  | .reply k =>
      match calls k with
      | some ⟨request, some out, .waiting⟩ =>
          (service.answer out).map fun res =>
            Function.update calls k (some ⟨request, some out, .returned res⟩)
      | _ => none
  | .fail k =>
      match calls k with
      | some ⟨request, executed, .waiting⟩ =>
          some (Function.update calls k (some ⟨request, executed, .failed⟩))
      | _ => none

/-- A service as a transition system, from no calls on. -/
def serviceSystem (service : Service Req Found Out Res) :
    System (Calls Id Req Out Res) (Act Id Req Found) where
  start calls := calls = fun _ => none
  step := step service

/-- What one step does to one call. -/
inductive Moves (service : Service Req Found Out Res) :
    Option (Call Req Out Res) → Option (Call Req Out Res) → Prop where
  | stays (c : Option (Call Req Out Res)) : Moves service c c
  | invoked (request : Req) : Moves service none (some ⟨request, none, .waiting⟩)
  | executed {request : Req} {found : Found} {out : Out} (status : Status Res)
      (h : service.serve request found = some out) :
      Moves service (some ⟨request, none, status⟩) (some ⟨request, some out, status⟩)
  | replied {out : Out} {res : Res} (request : Req) (h : service.answer out = some res) :
      Moves service (some ⟨request, some out, .waiting⟩) (some ⟨request, some out, .returned res⟩)
  | failed (request : Req) (executed : Option Out) :
      Moves service (some ⟨request, executed, .waiting⟩) (some ⟨request, executed, .failed⟩)

section Steps

variable {service : Service Req Found Out Res} {calls calls' : Calls Id Req Out Res}

/-- One call moves, the others stay. -/
theorem moves_update {k : Id} {c : Option (Call Req Out Res)} (h : Moves service (calls k) c)
    (j : Id) : Moves service (calls j) (Function.update calls k c j) := by
  by_cases hj : j = k
  · subst hj
    rw [Function.update_self]
    exact h
  · rw [Function.update_of_ne hj]
    exact .stays _

/-- **STEP INVERSION**. -/
theorem moves_of_step {a : Act Id Req Found} (hs : step service calls a = some calls') (j : Id) :
    Moves service (calls j) (calls' j) := by
  cases a with
  | invoke k request =>
      simp only [step] at hs
      split at hs
      · rename_i hk
        cases hs
        exact moves_update (hk ▸ .invoked request) j
      · cases hs
  | execute k found =>
      simp only [step] at hs
      split at hs
      · rename_i request status hk
        obtain ⟨out, hout, rfl⟩ := Option.map_eq_some_iff.mp hs
        exact moves_update (hk ▸ .executed status hout) j
      · cases hs
  | reply k =>
      simp only [step] at hs
      split at hs
      · rename_i request out hk
        obtain ⟨res, hres, rfl⟩ := Option.map_eq_some_iff.mp hs
        exact moves_update (hk ▸ .replied request hres) j
      · cases hs
  | fail k =>
      simp only [step] at hs
      split at hs
      · rename_i request executed hk
        cases hs
        exact moves_update (hk ▸ .failed request executed) j
      · cases hs

/-- An outcome comes from an execution of the call's own request, and what the call has returned
    is its answer. -/
def Served (service : Service Req Found Out Res) (c : Call Req Out Res) : Prop :=
  (∀ out, c.executed = some out → ∃ found, service.serve c.request found = some out)
  ∧ ∀ res, c.status = .returned res → ∃ out, c.executed = some out ∧ service.answer out = some res

/-- A call that moves stays served: what it returned is its own execution's reply. -/
theorem Served.moves {c c' : Call Req Out Res} (h : Served service c)
    (hm : Moves service (some c) (some c')) : Served service c' := by
  cases hm with
  | stays => exact h
  | @executed request found out status hout =>
      refine ⟨?_, fun res hres => ?_⟩
      · rintro _ ⟨⟩
        exact ⟨found, hout⟩
      · obtain ⟨_, hnone, -⟩ := h.2 res hres
        cases hnone
  | @replied out res request hres =>
      refine ⟨h.1, ?_⟩
      rintro _ ⟨⟩
      exact ⟨out, rfl, hres⟩
  | failed request executed => exact ⟨h.1, nofun⟩

/-- **EVERY ANSWER IS SERVED**, in every run. -/
theorem served_of_reachable (h : Reachable (serviceSystem service) calls) {k : Id}
    {c : Call Req Out Res} (hc : calls k = some c) : Served service c := by
  refine h.invariant (I := fun calls => ∀ k c, calls k = some c → Served service c) ?_ ?_ k c hc
  · rintro calls rfl k c hc
    cases hc
  · intro calls a calls' hI _ hs k c hc
    have hm := moves_of_step hs k
    rw [hc] at hm
    cases hk : calls k with
    | none =>
        rw [hk] at hm
        cases hm
        exact ⟨nofun, nofun⟩
    | some c0 =>
        rw [hk] at hm
        exact (hI k c0 hk).moves hm

/-- The call later on: its request is the same, and so are its outcome and its end, once they are
    there. -/
structure Later (c c' : Call Req Out Res) : Prop where
  request : c'.request = c.request
  executed : ∀ out, c.executed = some out → c'.executed = some out
  ended : c.status ≠ .waiting → c'.status = c.status

/-- **ONCE AND FOR ALL**: a call is executed once and ends once. -/
theorem later_of_leads (h : Leads (serviceSystem service) calls calls') {k : Id}
    {c : Call Req Out Res} (hc : calls k = some c) : ∃ c', calls' k = some c' ∧ Later c c' := by
  refine h.invariant (I := fun calls => ∃ c', calls k = some c' ∧ Later c c') ?_
    ⟨c, hc, rfl, fun _ h => h, fun _ => rfl⟩
  rintro calls a calls' ⟨c0, hc0, hlater⟩ hs
  have hm := moves_of_step hs k
  rw [hc0] at hm
  generalize calls' k = c1 at hm
  cases hm with
  | stays => exact ⟨_, rfl, hlater⟩
  | executed status hout =>
      refine ⟨_, rfl, hlater.request, fun out hout' => ?_, hlater.ended⟩
      exact nomatch hlater.executed out hout'
  | replied request hres =>
      refine ⟨_, rfl, hlater.request, hlater.executed, fun hne => ?_⟩
      have hsame := hlater.ended hne
      exact absurd hsame.symm hne
  | failed request executed =>
      refine ⟨_, rfl, hlater.request, hlater.executed, fun hne => ?_⟩
      have hsame := hlater.ended hne
      exact absurd hsame.symm hne

end Steps

end AtMostOnce
