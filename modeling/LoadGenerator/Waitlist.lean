/-!
# Waiting for answers

A `Waitlist` numbers the requests that are made of some state, from one on, and keeps those that
have not been answered. A request is tried when it is made; `settle` tries the waiting ones again,
in the order of their numbers and pass after pass, until a pass answers none.
-/

namespace LoadGenerator

/-- The requests made so far: those that still wait, lowest number first, and the answers of the
others in the order in which they came. -/
structure Waitlist (ω β : Type) where
  next : Nat := 1
  waiting : List (Nat × ω) := []
  answered : List (Nat × β) := []
  deriving Repr

namespace Waitlist

variable {σ ω β : Type}

/-- What tries a request: the state afterwards, and the answer if there is one. -/
abbrev Attempt (σ ω β : Type) := σ → Nat → ω → σ × Option β

/-- Makes a request and tries it once. -/
def request (attempt : Attempt σ ω β) (s : σ) (w : Waitlist ω β) (what : ω) :
    σ × Waitlist ω β × Option β :=
  match attempt s w.next what with
  | (s, some b) =>
    (s, { w with next := w.next + 1, answered := w.answered ++ [(w.next, b)] }, some b)
  | (s, none) =>
    (s, { w with next := w.next + 1, waiting := w.waiting ++ [(w.next, what)] }, none)

def poll (attempt : Attempt σ ω β) (s : σ) (w : Waitlist ω β) (id : Nat) : σ × Waitlist ω β :=
  match w.waiting.lookup id with
  | none => (s, w)
  | some what =>
    match attempt s id what with
    | (s, some b) => (s, { w with
        waiting := w.waiting.filter (·.1 != id), answered := w.answered ++ [(id, b)] })
    | (s, none) => (s, w)

def pollAll (attempt : Attempt σ ω β) (s : σ) (w : Waitlist ω β) (ids : List Nat) :
    σ × Waitlist ω β :=
  ids.foldl (fun (s, w) id => w.poll attempt s id) (s, w)

/-- Tries all waiting requests, pass after pass, until a pass answers none. -/
def passes (attempt : Attempt σ ω β) : Nat → σ → Waitlist ω β → σ × Waitlist ω β
  | 0, s, w => (s, w)
  | fuel + 1, s, w =>
    let (s', w') := w.pollAll attempt s (w.waiting.map (·.1))
    if w'.answered.length = w.answered.length then (s', w') else passes attempt fuel s' w'

/-- Tries the waiting requests until none of them is answered any more. Every pass but the last
answers a request, so there are no more passes than requests and one. -/
def settle (attempt : Attempt σ ω β) (s : σ) (w : Waitlist ω β) : σ × Waitlist ω β :=
  passes attempt (w.waiting.length + 1) s w

def isWaiting (w : Waitlist ω β) (id : Nat) : Bool :=
  w.waiting.any (·.1 == id)

/-- The requests without one that is given up. -/
def withdraw (w : Waitlist ω β) (id : Nat) : Waitlist ω β :=
  { w with waiting := w.waiting.filter (·.1 != id) }

/-- The answers that came after the first `count`, lowest number first. -/
def answeredSince (w : Waitlist ω β) (count : Nat) : List (Nat × β) :=
  (w.answered.drop count).mergeSort (·.1 ≤ ·.1)

end Waitlist

end LoadGenerator
