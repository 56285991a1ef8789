import Mathlib.Data.List.AList
import Seaplane.Kube.Store

/-!
What the operator uses besides its store and DynamoDB: Secrets Manager, the issuers it dials, and
random numbers.

Secrets Manager is consistent: a call sees every earlier one. Any call may fail, a write also after
it had its effect. What an issuer or another account answers, and the random numbers, come from
outside.
-/

namespace Seaplane.Infra

open Kube (Fault)

/-- The secrets of the operator's own account, by their names. -/
abbrev Secrets := AList fun _ : String => String

inductive SecretErr where
  /-- `ResourceNotFoundException`. -/
  | notFound
  /-- `ResourceExistsException`. -/
  | alreadyExists
  | other
  deriving DecidableEq, Repr

inductive Op where
  | describeSecret (name : String)
  | createSecret (name value : String)
  | putSecretValue (name value : String)
  | deleteSecret (name : String)
  /-- Read a secret of another account through a role. -/
  | readCrossAccountSecret (secretARN roleARN : String)
  | computeThumbprint (issuerURL : String)
  | randomDNSPrefix

abbrev Op.Res : Op → Type
  | .describeSecret _ | .createSecret _ _ | .putSecretValue _ _ | .deleteSecret _ =>
    Except SecretErr Unit
  | .readCrossAccountSecret _ _ | .computeThumbprint _ | .randomDNSPrefix => Except Unit String

/-- A write and its answer, unless something goes wrong. -/
def write (f : Fault) (d d' : Secrets) (r : Except SecretErr Unit) :
    Except SecretErr Unit × Secrets :=
  match f with
  | .none => (r, d')
  | .lost => (.error .other, d')
  | _ => (.error .other, d)

/-- What comes from outside, unless something goes wrong. -/
def answer (f : Fault) (text : String) : Except Unit String :=
  match f with
  | .none => .ok text
  | _ => .error ()

/-- A call; `text` is what comes from outside. -/
def exec (o : Op) (f : Fault) (text : String) (d : Secrets) : o.Res × Secrets :=
  match o with
  | .describeSecret name =>
    match f with
    | .none => (if name ∈ d then .ok () else .error .notFound, d)
    | _ => (.error .other, d)
  | .createSecret name value =>
    if name ∈ d then write f d d (.error .alreadyExists)
    else write f d (d.insert name value) (.ok ())
  | .putSecretValue name value =>
    if name ∈ d then write f d (d.insert name value) (.ok ()) else write f d d (.error .notFound)
  | .deleteSecret name =>
    if name ∈ d then write f d (d.erase name) (.ok ()) else write f d d (.error .notFound)
  | .readCrossAccountSecret _ _ | .computeThumbprint _ | .randomDNSPrefix => (answer f text, d)

end Seaplane.Infra
