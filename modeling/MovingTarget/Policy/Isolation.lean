import MovingTarget.Policy.Basic
/-!
# Isolating users at high risk

Every user at high risk who is not in the isolation domain is moved there. The isolation domain is
found by its name, and remembered for snapshots that leave it out.
-/
namespace MovingTarget

/-- The policy over snapshots with scalars `α`. -/
structure Isolation (α : Type) where
  domainName : String
  /-- Where the isolation domain was last seen. -/
  domain : Option DomainId
  migrations : Nat
  deriving DecidableEq

namespace Isolation
variable {α : Type}

def displayName : String := "Isolation"

def standard : Isolation α := ⟨"isolation", none, 0⟩

/-- The id in the first record, in key order, that bears the isolation name. -/
def namedDomain? (p : Isolation α) (s : Snapshot α) : Option DomainId :=
  (s.domains.values.find? fun d => d.name == p.domainName).map (·.id)

/-- The users at high risk who are not in domain `target`, ascending. -/
def atLarge (s : Snapshot α) (target : DomainId) : List UserId :=
  (s.usersAtLeast .high).filter fun u => s.domainOf? u ≠ some target

def decision (target : DomainId) (u : UserId) : Decision α :=
  .migrateUser u target s!"Isolating high-risk user {u}"

def evaluate (p : Isolation α) (s : Snapshot α) : Outcome (Isolation α) α :=
  let p := { p with domain := (p.namedDomain? s).or p.domain }
  match p.domain with
  | none =>
    { next := p
      decisions := []
      log := [⟨.normal, displayName, s!"Isolation domain {Text.quoted p.domainName} not found"⟩] }
  | some target =>
    let users := atLarge s target
    { next := { p with migrations := p.migrations + users.length }
      decisions := users.map (decision target)
      log := [] }

instance [Scalar α] : Policy (Isolation α) α where
  name _ := displayName
  evaluate := evaluate
  configure p _ := p
  reset p := { p with domain := none, migrations := 0 }
  statistics p := .ofList (("users_isolated", Scalar.ofCount p.migrations)
    :: (p.domain.map fun d => ("isolation_domain_id", Scalar.ofCount d.toNat)).toList)

end Isolation
end MovingTarget
