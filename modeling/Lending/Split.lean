import Lending.Digest
import Lending.Failure

/-! Splitting the applications of a champion strategy with a challenger.

An application's arm follows from its id alone: the id's digest puts it into one of a hundred
buckets, and the buckets below the challenger's percentage go to the challenger. So raising
the percentage only moves applications from the champion to the challenger. The digest is SHA-256
wherever no other is given. -/
namespace Lending

/-- What digests bytes to words. -/
abbrev Digest : Type :=
  List UInt8 → List UInt32

inductive Arm where
  | champion
  | challenger
  deriving DecidableEq, Repr

def Arm.all : List Arm :=
  [.champion, .challenger]

def Arm.name : Arm → String
  | .champion => "champion"
  | .challenger => "challenger"

/-- Two strategies and the challenger's share. -/
structure Split where
  champion : String
  challenger : String
  /-- Of the champion's applications, in percent. -/
  percent : Nat
  deriving DecidableEq, Repr

namespace Split

/-- The share is at most a hundred percent, and the strategies are two. -/
def validate (s : Split) : Except Failure Unit :=
  if 100 < s.percent then .error (.configuration (.percentOutOfRange s.percent))
  else if s.champion = s.challenger then .error (.configuration (.sameArms s.champion))
  else .ok ()

/-- A valid split. -/
def build (champion challenger : String) (percent : Nat) : Except Failure Split := do
  let s : Split := ⟨champion, challenger, percent⟩
  s.validate
  return s

/-- The first eight bytes of a digest, as a number. -/
def leading (digest : List UInt32) : Nat :=
  match digest with
  | high :: low :: _ => high.toNat * Nat.pow 2 32 + low.toNat
  | _ => 0

/-- The bucket of an application, of a hundred. -/
def bucket (applicationId : String) (digest : Digest := Digest.sha256) : Nat :=
  leading (digest applicationId.toUTF8.toList) % 100

/-- The arm of a bucket. -/
def armOf (s : Split) (bucket : Nat) : Arm :=
  if bucket < s.percent then .challenger else .champion

def arm (s : Split) (applicationId : String) (digest : Digest := Digest.sha256) : Arm :=
  s.armOf (bucket applicationId digest)

def strategyFor (s : Split) : Arm → String
  | .champion => s.champion
  | .challenger => s.challenger

end Split

end Lending
