import Seaplane.Db.Calls
import Seaplane.Lib.Trace

/-!
Calls that lose their connection after the procedure was sent.

The server may have performed any number of the procedure's statements by then; it goes on with
the rest, or rolls the transaction back. The client does not learn the transaction's identifier.
Its read-back runs on the connection that was lost, and fails as well.
-/

namespace Seaplane.Db

open Lib Database

/-- What the server does with a procedure whose connection breaks: all of it, or some statements
before it rolls back. -/
inductive Cut where
  | goesOn
  | rollsBack (statements : ℕ)

/-- The server performs `n` statements and then rolls back; `x` is the transaction, once it has
an identifier. -/
def cutOff {α : Type} : ℕ → Option ℕ → DbProg α → DbProg (Option α)
  | _, _, .ret a => .ret (some a)
  | 0, none, .op _ _ => .ret none
  | 0, some x, .op _ _ => .op (.endTx x) fun _ => .ret none
  | n + 1, _, .op .currentXactId k => .op .currentXactId fun y => cutOff n (some y) (k y)
  | n + 1, x, .op o k => .op o fun r => cutOff n x (k r)

def Cut.performed {α : Type} (m : DbProg α) : Cut → DbProg (Option α)
  | .goesOn => m.bind fun a => .ret (some a)
  | .rollsBack n => cutOff n none m

def landed : Except SqlState WriteRow → Bool
  | .ok r => r.changed
  | .error _ => false

/-- The procedure over a connection that breaks: `callStoredProc` reports an ambiguous commit
without the transaction's identifier, and `mapWriteError` reads back on the same connection, which
is closed by then. -/
def sendLost (cut : Cut) (p : WriteParams) : DbProg Outcome := do
  let a ← cut.performed (pgctlWrite p)
  let result ← mapWriteError .closed (.ambiguousCommit p.key 0)
  return ⟨result, a.any landed⟩

/-- Clients some of whose calls lose their connection. -/
def lossy : System Op Op.Res Database Choice (Call × Option Cut) Outcome where
  exec := exec
  code l := l.1.code (l.2.elim send sendLost)
  excl _ _ := false

abbrev LossyConf := Conf Op Op.Res Database (Call × Option Cut) Outcome

/-! ### What a lost call reports -/

variable {c : LossyConf} {es : List (ℕ × Seen Op Op.Res)} {i : ℕ} {l : Call} {cut : Cut}
  {a : Outcome}

end Seaplane.Db
