import MovingTarget.Snapshot.Basic
/-!
# Where users are routed

A user is served by a proxy of the domain. The proxies are split into a pool for everybody and a
pool at the end of the list for users at high risk; within a pool, users are dealt out in turn by
their id.

A user who joins goes to the least loaded domain, the lowest key among equals. A load that is no
number is passed over; if there is no other load, the lowest key serves.
-/
namespace MovingTarget

/-- What a caller of the engine can be told. A reference to something that a snapshot does not hold
is no fault: the item is passed over. -/
inductive Fault where
  | noProxies
  | noDomains
  | unknownPolicy (kind : String)
  /-- A list was asked for a position that it does not have. This is a mistake of the engine, and
  no caller is ever told it. -/
  | outOfRange
  deriving DecidableEq

def Fault.message : Fault → String
  | .noProxies => "invalid input: no proxies available"
  | .noDomains => "invalid input: no domains available"
  | .unknownPolicy kind => s!"unknown algorithm type: {kind}"
  | .outOfRange => "index out of range"

/-! ## Proxies -/

/-- Deal users out over a pool in turn. An empty pool has no turns: there is no remainder by its
length, and no position in it. -/
def pick (pool : List ProxyId) (u : UserId) : Except Fault ProxyId :=
  match pool[u.toNat % pool.length]? with
  | some p => .ok p
  | none => .error .outOfRange

/-- The proxy of a user when risk does not matter. -/
def dealProxy (proxies : List ProxyId) (u : UserId) : Except Fault ProxyId :=
  if proxies.isEmpty then .error .noProxies else pick proxies u

/-- What share of the proxies is set aside for users at high risk. -/
structure ProxyPools (α : Type) where
  ratio : α
  deriving DecidableEq, BEq

namespace ProxyPools
variable {α : Type} [Scalar α]

def standard : ProxyPools α := ⟨0.2⟩

def ofRatio (ratio : α) : ProxyPools α := ⟨Scalar.unit ratio⟩

/-- How many of `n` proxies are set aside: the share rounded down, at least one, at most all. -/
def isolatedCount (p : ProxyPools α) (n : Nat) : Nat :=
  min (max (Scalar.whole (Scalar.ofCount n * Scalar.unit p.ratio)) 1) n

/-- The pool for users at high risk: the last proxies of the list. -/
def isolation (p : ProxyPools α) (proxies : List ProxyId) : List ProxyId :=
  proxies.drop (proxies.length - p.isolatedCount proxies.length)

/-- The pool for all others: the other proxies, or all if none is left. -/
def normal (p : ProxyPools α) (proxies : List ProxyId) : List ProxyId :=
  let rest := proxies.take (proxies.length - p.isolatedCount proxies.length)
  if rest.isEmpty then proxies else rest

def pool (p : ProxyPools α) (proxies : List ProxyId) (level : RiskLevel) : List ProxyId :=
  if level.isHighRisk then p.isolation proxies else p.normal proxies

/-- The proxy of a user at a risk level. -/
def select (p : ProxyPools α) (u : UserId) (proxies : List ProxyId) (level : RiskLevel) :
    Except Fault ProxyId :=
  if proxies.isEmpty then .error .noProxies else pick (p.pool proxies level) u

end ProxyPools

/-! ## Domains -/

section Placement
open Scalar

variable {α : Type} [Scalar α]

/-- The better of the best domain so far and another one that comes later in key order. -/
def lessLoaded (best : Option (DomainId × α)) (e : DomainId × Domain α) : Option (DomainId × α) :=
  if isNumber e.2.load then
    match best with
    | some (k, load) => if e.2.load < load then some (e.1, e.2.load) else some (k, load)
    | none => some (e.1, e.2.load)
  else best

def leastLoaded (domains : Table DomainId (Domain α)) : Except Fault DomainId :=
  match domains.entries with
  | [] => .error .noDomains
  | first :: _ =>
    match domains.entries.foldl lessLoaded none with
    | some (k, _) => .ok k
    | none => .ok first.1

end Placement
end MovingTarget
