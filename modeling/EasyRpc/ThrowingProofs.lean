/-! # Computations that throw — catch clauses and what reaches them

    A computation over a state either returns or throws, and keeps the changes it has made to the
    state in both cases.  What it throws is an exception of the standard hierarchy, which carries
    a text, or a value of any other type; a `catch (std::exception&)` clause takes the first kind
    and lets the second through.

    The two rules behind nested handlers: a clause around a clause that logs and goes on changes
    nothing (`catchStd_idem`), and a clause around the whole of a sequence already covers one
    around its rest (`catchStd_bind`). -/

namespace Throwing

variable {St Part α β : Type}

/-- What is thrown: a `std::exception` with its message, or something else. -/
inductive Exn where
  | std (what : String)
  | other
  deriving DecidableEq

/-- A computation over a state that may throw. -/
abbrev Comp (St : Type) := ExceptT Exn (StateM St)

/-- The outcome of a computation and the state it leaves. -/
def Comp.exec (m : Comp St α) (s : St) : Except Exn α × St := (ExceptT.run m).run s

/-- A computation given by what it does to the state. -/
def Comp.of (f : St → Except Exn α × St) : Comp St α := ExceptT.mk f

/-- A value that may be missing, at no cost to the state. -/
def fromExcept (r : Except Exn α) : Comp St α := Comp.of fun s => (r, s)

/-- A computation that only changes the state. -/
def update (f : St → St) : Comp St Unit := Comp.of fun s => (.ok (), f s)

/-- `try { body } catch (std::exception& e) { handler(e.what()) }`. -/
def catchStd (body : Comp St α) (handler : String → Comp St α) : Comp St α :=
  Comp.of fun s =>
    match body.exec s with
    | (.error (.std what), s') => (handler what).exec s'
    | r => r

/-- A part of the state, read and replaced on its own. -/
structure Lens (St Part : Type) where
  get : St → Part
  set : St → Part → St
  get_set : ∀ s p, get (set s p) = p
  set_get : ∀ s, set s (get s) = s
  set_set : ∀ s p q, set (set s p) q = set s q

/-- A computation on a part of the state. -/
def onPart (l : Lens St Part) (m : Comp Part α) : Comp St α :=
  Comp.of fun s => ((m.exec (l.get s)).1, l.set s (m.exec (l.get s)).2)

/-- Computations that do the same from every state are equal. -/
theorem Comp.ext {m n : Comp St α} (h : ∀ s, m.exec s = n.exec s) : m = n :=
  funext h

@[simp] theorem exec_of (f : St → Except Exn α × St) (s : St) : (Comp.of f).exec s = f s := rfl

@[simp] theorem exec_fromExcept (r : Except Exn α) (s : St) :
    (fromExcept r : Comp St α).exec s = (r, s) := rfl

/-- A `catch` of `std::exception` goes into its clause for these only. -/
theorem exec_catchStd (body : Comp St α) (handler : String → Comp St α) (s : St) :
    (catchStd body handler).exec s = match body.exec s with
      | (.error (.std what), s') => (handler what).exec s'
      | r => r := rfl

/-- A computation on a part leaves the rest of the state. -/
theorem exec_onPart (l : Lens St Part) (m : Comp Part α) (s : St) :
    (onPart l m).exec s = ((m.exec (l.get s)).1, l.set s (m.exec (l.get s)).2) := rfl

theorem exec_onPart_of {l : Lens St Part} {m : Comp Part α} {s : St} {r : Except Exn α}
    {p : Part} (h : m.exec (l.get s) = (r, p)) : (onPart l m).exec s = (r, l.set s p) := by
  rw [exec_onPart, h]

/-- One computation after another: an exception ends both. -/
theorem exec_bind (m : Comp St α) (f : α → Comp St β) (s : St) :
    (m >>= f).exec s = match m.exec s with
      | (.ok a, s') => (f a).exec s'
      | (.error e, s') => (.error e, s') := by
  show (match m.exec s with
    | (r, s') => (ExceptT.bindCont f r).run s') = _
  obtain ⟨r, s'⟩ := m.exec s
  cases r with
  | ok a => rfl
  | error e => rfl

/-- A sequence whose head has returned. -/
theorem exec_bind_ok {m : Comp St α} {f : α → Comp St β} {s s' : St} {a : α}
    (h : m.exec s = (.ok a, s')) : (m >>= f).exec s = (f a).exec s' := by
  rw [exec_bind, h]

/-- A sequence whose head has thrown. -/
theorem exec_bind_error {m : Comp St α} {f : α → Comp St β} {s s' : St} {e : Exn}
    (h : m.exec s = (.error e, s')) : (m >>= f).exec s = (.error e, s') := by
  rw [exec_bind, h]

theorem fromExcept_ok_bind (a : α) (f : α → Comp St β) : (fromExcept (.ok a) >>= f) = f a :=
  rfl

theorem fromExcept_bind {γ : Type} (r : Except Exn α) (f : α → Except Exn β)
    (g : β → Comp St γ) :
    (fromExcept (r >>= f) >>= g) = fromExcept r >>= fun a => fromExcept (f a) >>= g := by
  cases r with
  | error e => rfl
  | ok a => rfl

theorem fromExcept_map {γ : Type} (r : Except Exn α) (f : α → β) (g : β → Comp St γ) :
    (fromExcept (r.map f) >>= g) = fromExcept r >>= fun a => g (f a) := by
  cases r with
  | error e => rfl
  | ok a => rfl

theorem bind_assoc {γ : Type} (m : Comp St α) (f : α → Comp St β) (g : β → Comp St γ) :
    (m >>= f >>= g) = m >>= fun a => f a >>= g := by
  refine Comp.ext fun s => ?_
  rw [exec_bind, exec_bind, exec_bind]
  rcases m.exec s with ⟨e | a, s'⟩
  · rfl
  · exact (exec_bind (f a) g s').symm

/-- Working on a part is sequential. -/
theorem onPart_bind (l : Lens St Part) (m : Comp Part α) (f : α → Comp Part β) :
    onPart l (m >>= f) = onPart l m >>= fun a => onPart l (f a) := by
  refine Comp.ext fun s => ?_
  rw [exec_bind, exec_onPart, exec_onPart, exec_bind]
  rcases m.exec (l.get s) with ⟨e | a, p⟩
  · rfl
  · show ((f a).exec p |>.1, l.set s ((f a).exec p).2) = (onPart l (f a)).exec (l.set s p)
    rw [exec_onPart, l.get_set, l.set_set]

theorem onPart_fromExcept (l : Lens St Part) (r : Except Exn α) :
    onPart l (fromExcept r) = fromExcept r := by
  refine Comp.ext fun s => ?_
  rw [exec_onPart, exec_fromExcept, exec_fromExcept, l.set_get]

/-- A clause around a computation that returns. -/
theorem exec_catchStd_ok {body : Comp St α} {handler : String → Comp St α} {s s' : St} {a : α}
    (h : body.exec s = (.ok a, s')) : (catchStd body handler).exec s = (.ok a, s') := by
  rw [exec_catchStd, h]

theorem exec_catchStd_std {body : Comp St α} {handler : String → Comp St α} {s s' : St}
    {what : String} (h : body.exec s = (.error (.std what), s')) :
    (catchStd body handler).exec s = (handler what).exec s' := by
  rw [exec_catchStd, h]

/-- A `std::exception` clause lets any other value through. -/
theorem exec_catchStd_other {body : Comp St α} {handler : String → Comp St α} {s s' : St}
    (h : body.exec s = (.error .other, s')) :
    (catchStd body handler).exec s = (.error .other, s') := by
  rw [exec_catchStd, h]

/-- A clause sees only where its body ends. -/
theorem exec_catchStd_congr {body body' : Comp St α} {handler : String → Comp St α} {s s' : St}
    (h : body.exec s = body'.exec s') :
    (catchStd body handler).exec s = (catchStd body' handler).exec s' := by
  rw [exec_catchStd, exec_catchStd, h]

/-- Handlers that themselves return normally. -/
def Returns (handler : String → Comp St α) : Prop :=
  ∀ what s, ∃ a s', (handler what).exec s = (.ok a, s')

/-- **NESTED CLAUSES**: a second clause around one whose handler returns sees nothing. -/
theorem catchStd_idem {handler : String → Comp St α} (hret : Returns handler)
    (body : Comp St α) : catchStd (catchStd body handler) handler = catchStd body handler := by
  refine Comp.ext fun s => ?_
  rcases h : body.exec s with ⟨a | e, s'⟩
  · cases a with
    | std what =>
        obtain ⟨b, t, ht⟩ := hret what s'
        have hin : (catchStd body handler).exec s = (.ok b, t) := (exec_catchStd_std h).trans ht
        rw [exec_catchStd_ok hin, hin]
    | other => rw [exec_catchStd_other (exec_catchStd_other h), exec_catchStd_other h]
  · rw [exec_catchStd_ok (exec_catchStd_ok h), exec_catchStd_ok h]

/-- **A CLAUSE AROUND A SEQUENCE** covers one around its rest. -/
theorem catchStd_bind {handler : String → Comp St β} (hret : Returns handler)
    (m : Comp St α) (f : α → Comp St β) :
    catchStd (m >>= fun a => catchStd (f a) handler) handler
      = catchStd (m >>= f) handler := by
  refine Comp.ext fun s => ?_
  rcases h : m.exec s with ⟨e | a, s'⟩
  · have h1 := exec_bind_error (f := fun a => catchStd (f a) handler) h
    have h2 := exec_bind_error (f := f) h
    rw [exec_catchStd, exec_catchStd, h1, h2]
  · have h1 := exec_bind_ok (f := fun a => catchStd (f a) handler) h
    have h2 := exec_bind_ok (f := f) h
    have hidem : (catchStd (catchStd (f a) handler) handler).exec s'
        = (catchStd (f a) handler).exec s' := by rw [catchStd_idem hret]
    rw [exec_catchStd, exec_catchStd, h1, h2]
    exact hidem

end Throwing
