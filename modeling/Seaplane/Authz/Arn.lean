import Mathlib.Tactic.Common

/-!
Principal ARNs: parsing, matching a caller against the principal of an attachment, and the lookup
keys of principals.

The keys are plain texts joined with `#`. They cannot run into each other because an account has
exactly twelve digits; the account of a principal and what identifies it inside the account can
be read back from its key.
-/

namespace Seaplane.Authz

/-- The errors of the package. A wrapped `ErrValidation` keeps its cause. -/
inductive AuthzError where
  | conflict
  | notFound
  | wrongWriter
  | unavailable
  | validation (cause : AuthzError)
  | unsupportedPartition (partition : String)
  | ambiguousRoleAlias (name : String)
  /-- `ErrNotFound` for the policy of an attachment. -/
  | referencedPolicy (id : String)
  | text (message : String)
  deriving DecidableEq, Repr

/-- `^[0-9]{12}$`. -/
def accountPattern (s : String) : Bool := s.length == 12 && s.toList.all Char.isDigit

def isLowerAlnum (c : Char) : Bool := c.isLower || c.isDigit

/-- `strings.Split` at a character. -/
def split (c : Char) (s : String) : List String := (s.toList.splitOn c).map String.ofList

/-- `^[a-z]{2}(-[a-z0-9]+)+-[0-9]+$`: at least three parts, the last one a number. -/
def regionPattern (s : String) : Bool :=
  match split '-' s with
  | first :: second :: third :: rest =>
    let middle := (second :: third :: rest).dropLast
    let last := (third :: rest).getLastD ""
    first.length == 2 && first.toList.all Char.isLower &&
      middle.all (fun p => p != "" && p.toList.all isLowerAlnum) &&
      last != "" && last.toList.all Char.isDigit
  | _ => false

/-- `^[A-Za-z0-9+=,.@_-]{1,64}$`. -/
def namePattern (s : String) : Bool :=
  1 ≤ s.length && s.length ≤ 64 &&
    s.toList.all fun c => c.isAlphanum || ['+', '=', ',', '.', '@', '_', '-'].contains c

/-- `^[A-Za-z0-9][A-Za-z0-9._-]*$`. -/
def idPattern (s : String) : Bool :=
  match s.toList with
  | [] => false
  | c :: cs => c.isAlphanum && cs.all fun c => c.isAlphanum || ['.', '_', '-'].contains c

/-- `strings.SplitN`: at most `n` parts, the last one is what remains. -/
def splitN (c : Char) : ℕ → List Char → List String
  | 0, _ => []
  | 1, s => [String.ofList s]
  | n + 2, s =>
    match s.span (· != c) with
    | (part, []) => [String.ofList part]
    | (part, _ :: rest) => String.ofList part :: splitN c (n + 1) rest

structure ARN where
  partition : String
  service : String
  region : String
  accountID : String
  resource : String

/-- `arn.Parse` of the AWS SDK, as it is documented: the prefix `arn:` and six sections, the last of
which may hold further colons. -/
def ARN.parse (value : String) : Except AuthzError ARN :=
  if !"arn:".toList.isPrefixOf value.toList then .error (.text "arn: invalid prefix")
  else
    match splitN ':' 6 value.toList with
    | [_, partition, service, region, accountID, resource] =>
      .ok ⟨partition, service, region, accountID, resource⟩
    | _ => .error (.text "arn: not enough sections")

inductive PrincipalKind where
  | user
  | role
  | assumedRole
  deriving DecidableEq, Repr

/-- `principalARN`. -/
structure Principal where
  partition : String
  account : String
  kind : PrincipalKind
  roleName : String
  original : String
  deriving DecidableEq, Repr

/-- The path of an IAM user or role, without the leading kind. -/
def checkedPath (resource : String) (parts : List String) : Except AuthzError Unit :=
  if 512 < resource.utf8ByteSize then .error (.text "principal ARN path too long")
  else if parts.any fun part => !namePattern part || part == "." || part == ".." then
    .error (.text "invalid principal ARN path")
  else .ok ()

/-- A commercial IAM user, IAM role or STS session; the full ARN is kept. -/
def parsePrincipal (value : String) : Except AuthzError Principal := do
  let parsed ← ARN.parse value
  if parsed.partition != "aws" then throw (.unsupportedPartition parsed.partition)
  if parsed.region != "" || !accountPattern parsed.accountID then
    throw (.text "principal ARN requires an account and no region")
  match split '/' parsed.resource with
  | [] | [_] => throw (.text "unsupported principal ARN resource")
  | kind :: part :: parts =>
    if parsed.service == "iam" && kind == "user" then
      checkedPath parsed.resource (part :: parts)
      return ⟨parsed.partition, parsed.accountID, .user, "", value⟩
    else if parsed.service == "iam" && kind == "role" then
      checkedPath parsed.resource (part :: parts)
      return ⟨parsed.partition, parsed.accountID, .role, (part :: parts).getLastD "", value⟩
    else if parsed.service == "sts" && kind == "assumed-role" then
      match parts with
      | [session] =>
        if !namePattern part || !namePattern session then
          throw (.text "invalid assumed-role ARN")
        return ⟨parsed.partition, parsed.accountID, .assumedRole, part, value⟩
      | _ => throw (.text "invalid assumed-role ARN")
    else throw (.text "unsupported principal ARN service or kind")

structure Identity where
  accountID : String
  callerARN : String
  isAllowlisted : Bool
  deriving DecidableEq, Repr

/-- The caller is a user or a session of the account it claims. -/
def checkedIdentity (id : Identity) : Except AuthzError Principal := do
  let principal ← parsePrincipal id.callerARN
  if principal.account != id.accountID || principal.kind == .role then
    throw (.text "caller must be a user or session in the identity account")
  return principal

namespace Principal

/-- STS leaves the path of a role out, so it is left out here. -/
def roleAlias (p : Principal) : String := p.partition ++ "/" ++ p.account ++ "/" ++ p.roleName

end Principal

/-- A target that is the caller itself, or the role of the caller's session. -/
def matchesPrincipal (target caller : Principal) : Bool :=
  target.original == caller.original ||
    (target.kind == .role && caller.kind == .assumedRole &&
      target.roleAlias == caller.roleAlias)

def accountKey (account : String) : String := "ACCOUNT#" ++ account

/-- The lookup key that a role shares with its sessions. -/
def roleKey (p : Principal) : String := "ACCOUNT#" ++ p.account ++ "#ROLE#" ++ p.roleAlias

def principalKey (p : Principal) : String :=
  if p.kind == .role then roleKey p else "ACCOUNT#" ++ p.account ++ "#EXACT#" ++ p.original

def lookupKeys (caller : Principal) : List String :=
  principalKey caller :: if caller.kind == .assumedRole then [roleKey caller] else []

/-! ### Reading keys back -/

variable {p q : Principal} {a b x : String}

lemma parsePrincipal_spec {value : String} (h : parsePrincipal value = .ok p) :
    p.original = value ∧ p.partition = "aws" ∧ accountPattern p.account := by
  simp only [parsePrincipal, bind, Except.bind, throw, throwThe, MonadExceptOf.throw, pure,
    Except.pure] at h
  split at h
  · cases h
  rename_i parsed _
  split at h
  · cases h
  rename_i hpart
  split at h
  · cases h
  rename_i hacc
  have hpart : parsed.partition = "aws" := by simpa using hpart
  have hacc : accountPattern parsed.accountID = true := by
    simp only [Bool.or_eq_true, not_or, bne_iff_ne, ne_eq, Bool.not_eq_true', not_not] at hacc
    simpa using hacc.2
  split at h
  · cases h
  · cases h
  -- every branch that is left returns the partition, the account and the value as they are
  all_goals
    repeat' split at h
    all_goals first
      | cases h; exact ⟨rfl, hpart, hacc⟩
      | cases h

lemma parsePrincipal_inj {v w : String} (hp : parsePrincipal v = .ok p)
    (hq : parsePrincipal w = .ok q) (h : p.original = q.original) : p = q := by
  have hvw : v = w := by
    rw [← (parsePrincipal_spec hp).1, ← (parsePrincipal_spec hq).1, h]
  rw [hvw, hq] at hp
  exact (Except.ok.inj hp).symm

lemma accountPattern_length (h : accountPattern a) : a.toList.length = 12 := by
  simp only [accountPattern, Bool.and_eq_true, beq_iff_eq] at h
  exact String.length_toList.trans h.1

lemma marked_inj {y marker : String} (ha : accountPattern a) (hb : accountPattern b)
    (h : "ACCOUNT#" ++ a ++ marker ++ x = "ACCOUNT#" ++ b ++ marker ++ y) : a = b ∧ x = y := by
  have hl := congrArg String.toList h
  simp only [String.toList_append, List.append_assoc, List.append_cancel_left_eq] at hl
  obtain ⟨h1, h2⟩ := List.append_inj hl
    ((accountPattern_length ha).trans (accountPattern_length hb).symm)
  exact ⟨String.toList_injective h1, String.toList_injective (List.append_cancel_left h2)⟩

lemma exact_ne_role {y : String} (ha : accountPattern a) (hb : accountPattern b) :
    "ACCOUNT#" ++ a ++ "#EXACT#" ++ x ≠ "ACCOUNT#" ++ b ++ "#ROLE#" ++ y := by
  intro h
  have hl := congrArg String.toList h
  simp only [String.toList_append, List.append_assoc, List.append_cancel_left_eq] at hl
  obtain ⟨-, h2⟩ := List.append_inj hl
    ((accountPattern_length ha).trans (accountPattern_length hb).symm)
  simp at h2

lemma accountKey_inj (h : accountKey a = accountKey b) : a = b := by
  have hl := congrArg String.toList h
  simp only [accountKey, String.toList_append, List.append_cancel_left_eq] at hl
  exact String.toList_injective hl

lemma accountKey_ne {marker : String} (ha : accountPattern a) (hb : accountPattern b)
    (hm : marker.toList ≠ []) : accountKey a ≠ "ACCOUNT#" ++ b ++ marker ++ x := by
  intro h
  have hl := congrArg (fun s => s.toList.length) h
  have hm : 0 < marker.toList.length := List.length_pos_iff.mpr hm
  simp only [accountKey, String.toList_append, List.length_append, accountPattern_length ha,
    accountPattern_length hb] at hl
  omega

/-- A parsed principal, as far as its keys go. -/
structure Principal.Valid (p : Principal) : Prop where
  partition : p.partition = "aws"
  account : accountPattern p.account

lemma valid_of_parse {value : String} (h : parsePrincipal value = .ok p) : p.Valid :=
  ⟨(parsePrincipal_spec h).2.1, (parsePrincipal_spec h).2.2⟩

lemma roleAlias_inj (hp : p.Valid) (hq : q.Valid) (h : p.roleAlias = q.roleAlias) :
    p.account = q.account ∧ p.roleName = q.roleName := by
  have hl := congrArg String.toList h
  simp only [Principal.roleAlias, hp.partition, hq.partition, String.toList_append,
    List.append_assoc, List.append_cancel_left_eq] at hl
  obtain ⟨h1, h2⟩ := List.append_inj hl
    ((accountPattern_length hp.account).trans (accountPattern_length hq.account).symm)
  exact ⟨String.toList_injective h1, String.toList_injective (List.append_cancel_left h2)⟩

lemma principalKey_role (h : p.kind = .role) : principalKey p = roleKey p := by
  simp [principalKey, h]

lemma principalKey_exact (h : p.kind ≠ .role) :
    principalKey p = "ACCOUNT#" ++ p.account ++ "#EXACT#" ++ p.original := by
  simp [principalKey, h]

lemma principalKey_account (hp : p.Valid) (hq : q.Valid) (h : principalKey p = principalKey q) :
    p.account = q.account := by
  by_cases h1 : p.kind = .role <;> by_cases h2 : q.kind = .role
  · rw [principalKey_role h1, principalKey_role h2] at h
    exact (marked_inj hp.account hq.account h).1
  · rw [principalKey_role h1, principalKey_exact h2] at h
    exact absurd h.symm (exact_ne_role hq.account hp.account)
  · rw [principalKey_exact h1, principalKey_role h2] at h
    exact absurd h (exact_ne_role hp.account hq.account)
  · rw [principalKey_exact h1, principalKey_exact h2] at h
    exact (marked_inj hp.account hq.account h).1

lemma accountKey_ne_principalKey (ha : accountPattern a) (hp : p.Valid) :
    accountKey a ≠ principalKey p := by
  by_cases h : p.kind = .role
  · rw [principalKey_role h]
    exact accountKey_ne ha hp.account (by simp)
  · rw [principalKey_exact h]
    exact accountKey_ne ha hp.account (by simp)

lemma accountKey_notMem_lookupKeys {caller : Principal} (ha : accountPattern a)
    (hc : caller.Valid) : accountKey a ∉ lookupKeys caller := by
  have h1 := accountKey_ne_principalKey ha hc
  have h2 : accountKey a ≠ roleKey caller := accountKey_ne ha hc.account (by simp)
  by_cases hs : caller.kind = .assumedRole
  · simp [lookupKeys, hs, h1, h2]
  · simp [lookupKeys, hs, h1]

/-- **The lookup keys of a caller are the keys of the principals that match it.** -/
lemma mem_lookupKeys {v w : String} {target caller : Principal} (ht : parsePrincipal v = .ok target)
    (hc : parsePrincipal w = .ok caller) (hk : caller.kind ≠ .role) :
    principalKey target ∈ lookupKeys caller ↔ matchesPrincipal target caller = true := by
  have vt := valid_of_parse ht
  have vc := valid_of_parse hc
  -- the exact key: only the caller's own ARN lies under it
  have hexact : principalKey target = principalKey caller ↔ target.original = caller.original := by
    refine ⟨fun h => ?_, fun h => by rw [parsePrincipal_inj ht hc h]⟩
    rw [principalKey_exact hk] at h
    by_cases h1 : target.kind = .role
    · rw [principalKey_role h1] at h
      exact absurd h.symm (exact_ne_role vc.account vt.account)
    · rw [principalKey_exact h1] at h
      exact (marked_inj vt.account vc.account h).2
  -- the shared key: only roles with the caller's alias lie under it
  have hrole : principalKey target = roleKey caller ↔
      target.kind = .role ∧ target.roleAlias = caller.roleAlias := by
    refine ⟨fun h => ?_, fun ⟨h1, h2⟩ => ?_⟩
    · by_cases h1 : target.kind = .role
      · rw [principalKey_role h1] at h
        exact ⟨h1, (marked_inj vt.account vc.account h).2⟩
      · rw [principalKey_exact h1] at h
        exact absurd h (exact_ne_role vt.account vc.account)
    · rw [principalKey_role h1, roleKey, roleKey, h2, (roleAlias_inj vt vc h2).1]
  by_cases hs : caller.kind = .assumedRole
  · simp [lookupKeys, matchesPrincipal, hs, hexact, hrole]
  · simp [lookupKeys, matchesPrincipal, hs, hexact]

end Seaplane.Authz
