import LoadGenerator.Engine

/-!
# Replying to calls

A call may be replied to by its number, or by its place among the calls that wait; several calls are
replied to lowest number first, and everything runs in between.
-/

namespace LoadGenerator

inductive Addressee where
  | call (number : Nat)
  | place (n : Nat)
  | waiting
  | each (most : Nat)
  deriving DecidableEq, Repr

/-- What comes of a reply: whether the call waited for it, which call it was, or how many. -/
inductive Receipt where
  | waited (b : Bool)
  | call (number : Option Nat)
  | count (n : Nat)
  deriving DecidableEq, Repr

namespace Addressee

/-- What comes of a reply when no call waits. -/
def noReceipt : Addressee → Receipt
  | .call _ => .waited false
  | .place _ => .call none
  | .waiting => .count 0
  | .each _ => .count 0

end Addressee

namespace Engine

/-- Replies to a call, and says whether it waited for that. -/
def respond (e : Engine) (call : Nat) (reply : Reply) : Engine × Bool :=
  (({ e with log := e.log.reply call reply }).callBack, e.log.isWaiting call)

/-- Replies to the call at a place among those that wait, counting on from the first after the last,
and gives its number. -/
def respondNth (e : Engine) (place : Nat) (reply : Reply) : Engine × Option Nat :=
  match e.log.waiting[place % e.log.waiting.length]? with
  | none => (e, none)
  | some call => ((e.respond call reply).1, some call)

/-- Replies to calls one after the other and lets everything run after each: how many of them waited
for that. -/
def respondEach (script : Script) (e : Engine) (reply : Reply) : List Nat → Engine × Nat
  | [] => (e, 0)
  | call :: calls =>
    let (e, waited) := e.respond call reply
    let (e, count) := (e.settle script).respondEach script reply calls
    (e, count + if waited then 1 else 0)

/-- Replies to the calls that wait now. -/
def respondAll (script : Script) (e : Engine) (reply : Reply) : Engine × Nat :=
  e.respondEach script reply e.log.waiting

/-- Replies to the first call that waits until none does, at most `most` times: how often. -/
def drain (script : Script) (e : Engine) (reply : Reply) : Nat → Engine × Nat
  | 0 => (e, 0)
  | most + 1 =>
    match e.log.waiting with
    | [] => (e, 0)
    | call :: _ =>
      let (e, count) := (((e.respond call reply).1).settle script).drain script reply most
      (e, count + 1)

def receive (script : Script) (e : Engine) (reply : Reply) : Addressee → Engine × Receipt
  | .call number =>
    let (e, b) := e.respond number reply
    (e, .waited b)
  | .place n =>
    let (e, number) := e.respondNth n reply
    (e, .call number)
  | .waiting =>
    let (e, count) := e.respondAll script reply
    (e, .count count)
  | .each most =>
    let (e, count) := e.drain script reply most
    (e, .count count)

end Engine

end LoadGenerator
