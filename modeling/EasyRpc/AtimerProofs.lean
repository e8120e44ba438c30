import Mathlib.Data.List.Basic

/-! # The asynchronous timer — waits, completion handlers and bound callbacks

    `atimer` wraps one `deadline_timer`.  A wait that `async_wait` registers stays on the timer
    until its deadline passes or it is aborted; either way its completion handler is queued on
    the `io_service` and runs later, with success or with `operation_aborted`.  `cancel` and
    `expires_from_now` abort only the waits still on the timer: a handler already queued with
    success keeps its verdict.  A handler that runs with success calls every bound callback, and
    nothing ever removes a callback from `func_vec_`. -/

namespace EasyRpcAtimer

variable {W F : Type}

/-- `W` is what the closure of a wait carries, `F` the callbacks. -/
structure Atimer (W F : Type) where
  -- waits registered on the `deadline_timer`
  waiting : List W
  -- queued completion handlers, each with its verdict: `true` for `operation_aborted`
  ready : List (W × Bool)
  funcVec : List F
  isSingleShot : Bool
  deriving DecidableEq

namespace Atimer

/-- `atimer(boost::asio::io_service& ios)`. -/
def create : Atimer W F := ⟨[], [], [], false⟩

/-- `deadline_timer::cancel`. -/
def cancel (t : Atimer W F) : Atimer W F :=
  { t with waiting := [], ready := t.ready ++ t.waiting.map fun w => (w, true) }

/-- `deadline_timer::expires_from_now`. -/
def expiresFromNow (t : Atimer W F) : Atimer W F := t.cancel

/-- `timer_.async_wait`: one more pending wait, marked with what it was started for. -/
def asyncWait (t : Atimer W F) (w : W) : Atimer W F :=
  { t with waiting := t.waiting ++ [w] }

/-- `atimer::start`: a new expiry, which aborts the waits of before, then a new wait. -/
def start (t : Atimer W F) (w : W) : Atimer W F := t.expiresFromNow.asyncWait w

/-- `atimer::stop`, which cancels. -/
def stop (t : Atimer W F) : Atimer W F := t.cancel

/-- `atimer::bind`: callbacks are added at the back of `func_vec_` and never taken out. -/
def bind (t : Atimer W F) (func : F) : Atimer W F :=
  { t with funcVec := t.funcVec ++ [func] }

/-- `atimer::set_single_shot`. -/
def setSingleShot (t : Atimer W F) (isSingleShort : Bool) : Atimer W F :=
  { t with isSingleShot := isSingleShort }

/-- The deadline passes. -/
def expire (t : Atimer W F) : Atimer W F :=
  { t with waiting := [], ready := t.ready ++ t.waiting.map fun w => (w, false) }

/-- A queued completion handler leaves the queue to run. -/
def dequeue (t : Atimer W F) (n : Nat) : Atimer W F :=
  { t with ready := t.ready.eraseIdx n }

/-- The end of a handler that ran with success: `if (!is_single_shot_) start(duration)`. -/
def rearm (t : Atimer W F) (w : W) : Atimer W F :=
  if t.isSingleShot then t else t.start w

/-! ## What each operation leaves alone -/

section Fields

variable (t : Atimer W F) (n : Nat)

@[simp] theorem dequeue_waiting : (t.dequeue n).waiting = t.waiting := rfl
@[simp] theorem dequeue_funcVec : (t.dequeue n).funcVec = t.funcVec := rfl
@[simp] theorem dequeue_isSingleShot : (t.dequeue n).isSingleShot = t.isSingleShot := rfl

end Fields

/-- In single shot mode a handler starts no further wait. -/
theorem rearm_of_singleShot {t : Atimer W F} (h : t.isSingleShot = true) (w : W) :
    t.rearm w = t :=
  if_pos h

theorem rearm_mode (t : Atimer W F) (w : W) : (t.rearm w).isSingleShot = t.isSingleShot := by
  rw [rearm]
  split <;> rfl

theorem rearm_funcs (t : Atimer W F) (w : W) : (t.rearm w).funcVec = t.funcVec := by
  rw [rearm]
  split <;> rfl

/-- Some handler that was queued when its wait expired has not run yet. -/
def Fired (t : Atimer W F) : Prop := ∃ w, (w, false) ∈ t.ready

/-- **CANCEL IS TOO LATE FOR A FIRED WAIT**: stopping the timer neither adds nor removes a
    handler queued with success. -/
theorem fired_stop {t : Atimer W F} : t.stop.Fired ↔ t.Fired := by
  constructor
  · rintro ⟨w, hw⟩
    rcases List.mem_append.mp hw with hready | haborted
    · exact ⟨w, hready⟩
    · obtain ⟨w', -, hw'⟩ := List.mem_map.mp haborted
      cases hw'
  · rintro ⟨w, hw⟩
    exact ⟨w, List.mem_append_left _ hw⟩

/-- What has run out after a handler was taken off the queue had run out before. -/
theorem fired_dequeue {t : Atimer W F} {n : Nat} (h : (t.dequeue n).Fired) : t.Fired := by
  obtain ⟨w, hw⟩ := h
  exact ⟨w, List.mem_of_mem_eraseIdx hw⟩

/-- Running an aborted handler leaves the fired ones queued. -/
theorem fired_dequeue_aborted {t : Atimer W F} {n : Nat} {w : W}
    (hn : t.ready[n]? = some (w, true)) : (t.dequeue n).Fired ↔ t.Fired := by
  refine ⟨fired_dequeue, ?_⟩
  rintro ⟨w', hw'⟩
  refine ⟨w', ?_⟩
  obtain ⟨m, hm, hmw⟩ := List.getElem_of_mem hw'
  refine List.mem_eraseIdx_iff_getElem.mpr ⟨m, hm, ?_, hmw⟩
  rintro rfl
  rw [List.getElem?_eq_getElem hm, hmw] at hn
  cases hn

end Atimer

end EasyRpcAtimer
