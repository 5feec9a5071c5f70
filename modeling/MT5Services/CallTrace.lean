import Mathlib.Data.List.Basic

/-!
Computations that call out: the events of their calls, in order, and the value they
return or the error they raise. A computation that follows another one adds its events
to those of the first; one that raises is followed by nothing. The rules give the events
of a sequence from those of its parts.
-/
namespace MT5Services.CallTrace

/-- The events of a computation that has ended, and how it ended. -/
structure Traced (V E α : Type) where
  events : List V
  ending : Except E α
  deriving DecidableEq

namespace Traced

variable {V E α β γ : Type}

def raise (error : E) : Traced V E α := ⟨[], .error error⟩

def emit (event : V) : Traced V E Unit := ⟨[event], .ok ()⟩

/-- A call without an event of its own. -/
def lift (reply : Except E α) : Traced V E α := ⟨[], reply⟩

def bind (x : Traced V E α) (f : α → Traced V E β) : Traced V E β :=
  match x.ending with
  | .ok a => ⟨x.events ++ (f a).events, (f a).ending⟩
  | .error error => ⟨x.events, .error error⟩

/-- Go on with the handler after an error. -/
def catching (x : Traced V E α) (handler : E → Traced V E α) : Traced V E α :=
  match x.ending with
  | .ok _ => x
  | .error error => ⟨x.events ++ (handler error).events, (handler error).ending⟩

instance : Monad (Traced V E) where
  pure a := ⟨[], .ok a⟩
  bind := bind

theorem bind_ok {x : Traced V E α} {a : α} (f : α → Traced V E β) (h : x.ending = .ok a) :
    (x >>= f).events = x.events ++ (f a).events := by
  show (x.bind f).events = _
  simp only [bind, h]

theorem bind_error {x : Traced V E α} {error : E} (f : α → Traced V E β)
    (h : x.ending = .error error) : (x >>= f).events = x.events := by
  show (x.bind f).events = _
  simp only [bind, h]

@[simp] theorem pure_bind (a : α) (f : α → Traced V E β) :
    (pure a >>= f : Traced V E β).events = (f a).events := rfl

@[simp] theorem emit_bind (event : V) (f : Unit → Traced V E β) :
    (emit event >>= f : Traced V E β).events = event :: (f ()).events := rfl

@[simp] theorem lift_ok_bind (a : α) (f : α → Traced V E β) :
    (lift (.ok a) >>= f : Traced V E β).events = (f a).events := rfl

@[simp] theorem lift_error_bind (error : E) (f : α → Traced V E β) :
    (lift (.error error) >>= f : Traced V E β).events = [] := rfl

theorem bind_assoc (x : Traced V E α) (f : α → Traced V E β) (g : β → Traced V E γ) :
    x >>= f >>= g = x >>= fun a => f a >>= g := by
  show (x.bind f).bind g = x.bind fun a => (f a).bind g
  cases hx : x.ending with
  | error error => simp only [bind, hx]
  | ok a =>
    cases hf : (f a).ending with
    | error error => simp only [bind, hx, hf]
    | ok b => simp only [bind, hx, hf, List.append_assoc]

/-- What follows without events adds none. -/
theorem bind_silent {x : Traced V E α} {f : α → Traced V E β} (h : ∀ a, (f a).events = []) :
    (x >>= f).events = x.events := by
  cases hx : x.ending with
  | ok a => rw [bind_ok f hx, h a, List.append_nil]
  | error error => exact bind_error f hx

theorem catching_silent {x : Traced V E α} {handler : E → Traced V E α}
    (h : ∀ error, (handler error).events = []) : (x.catching handler).events = x.events := by
  unfold catching
  cases hx : x.ending with
  | ok a => rfl
  | error error => exact (congrArg (x.events ++ ·) (h error)).trans (List.append_nil _)

end Traced

end MT5Services.CallTrace
