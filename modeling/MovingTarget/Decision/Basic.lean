import MovingTarget.Snapshot.Basic
/-!
# Decisions

What a policy proposes: one constructor for every action, holding what that action needs and
nothing else.
-/
namespace MovingTarget

/-- How the users of a domain are spread over its proxies in a shuffle. -/
inductive ShuffleMode where
  | random
  | scoreDriven
  | roundRobin
  | attackerAvoid
  | loadBalanced
  | custom
  deriving DecidableEq, Inhabited

instance : Vocabulary ShuffleMode where
  noun := "shuffle mode"
  all := [.random, .scoreDriven, .roundRobin, .attackerAvoid, .loadBalanced, .custom]
  name
    | .random => "RANDOM"
    | .scoreDriven => "SCORE_DRIVEN"
    | .roundRobin => "ROUND_ROBIN"
    | .attackerAvoid => "ATTACKER_AVOID"
    | .loadBalanced => "LOAD_BALANCED"
    | .custom => "CUSTOM"

/-- What a decision does. -/
inductive Action where
  | noAction
  | triggerShuffle
  | migrateUser
  | splitDomain
  | mergeDomains
  | updateScore
  | changeFrequency
  | custom
  deriving DecidableEq

instance : Vocabulary Action where
  noun := "action"
  all := [.noAction, .triggerShuffle, .migrateUser, .splitDomain, .mergeDomains, .updateScore,
    .changeFrequency, .custom]
  name
    | .noAction => "NO_ACTION"
    | .triggerShuffle => "TRIGGER_SHUFFLE"
    | .migrateUser => "MIGRATE_USER"
    | .splitDomain => "SPLIT_DOMAIN"
    | .mergeDomains => "MERGE_DOMAINS"
    | .updateScore => "UPDATE_SCORE"
    | .changeFrequency => "CHANGE_FREQUENCY"
    | .custom => "CUSTOM"

inductive Decision (α : Type) where
  | noAction
  | triggerShuffle (domain : DomainId) (mode : ShuffleMode) (reason : String)
  | migrateUser (user : UserId) (domain : DomainId) (reason : String)
  | splitDomain (domain : DomainId) (reason : String)
  | mergeDomains (domain secondary : DomainId) (reason : String)
  | updateScore (user : UserId) (score : α) (reason : String)
  /-- `interval` is in seconds. -/
  | changeFrequency (domain : DomainId) (interval : α) (reason : String)
  | custom (params : Table String String) (reason : String)
  deriving DecidableEq, BEq

namespace Decision
variable {α : Type}

/-- An update carries a score in the unit interval. -/
def rescore [Scalar α] (user : UserId) (score : α) (reason : String) : Decision α :=
  .updateScore user (Scalar.unit score) reason

def action : Decision α → Action
  | noAction => .noAction
  | triggerShuffle .. => .triggerShuffle
  | migrateUser .. => .migrateUser
  | splitDomain .. => .splitDomain
  | mergeDomains .. => .mergeDomains
  | updateScore .. => .updateScore
  | changeFrequency .. => .changeFrequency
  | custom .. => .custom

/-- Why the decision was taken; doing nothing needs no reason. -/
def reason : Decision α → String
  | noAction => ""
  | triggerShuffle _ _ reason | migrateUser _ _ reason | splitDomain _ reason
  | mergeDomains _ _ reason | updateScore _ _ reason | changeFrequency _ _ reason
  | custom _ reason => reason

/-- The domain acted on; for a migration the one the user goes to. -/
def domain? : Decision α → Option DomainId
  | triggerShuffle domain _ _ | migrateUser _ domain _ | splitDomain domain _
  | mergeDomains domain _ _ | changeFrequency domain _ _ => some domain
  | noAction | updateScore .. | custom .. => none

def user? : Decision α → Option UserId
  | migrateUser user _ _ | updateScore user _ _ => some user
  | _ => none

def mode? : Decision α → Option ShuffleMode
  | triggerShuffle _ mode _ => some mode
  | _ => none

end Decision
end MovingTarget
