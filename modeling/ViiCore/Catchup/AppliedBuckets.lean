import ViiCore.Bucket.Overlay
import ViiCore.Catchup.ApplyBucketsWork
import ViiCore.Ledger.LedgerTxnMaps

/-!
What the entries of a bucket leave in the database.

A batch that ends in the middle of a bucket applies its last entry, and the next batch applies it
again, which changes nothing.
-/

namespace ViiCore.Catchup

open ViiCore.Bucket ViiCore.FiniteMap ViiCore.LedgerTxn ViiCore.Execution
open SortedMerge (Ascending find)

variable {κ ν ρ σ η : Type} [LinearOrder κ] [DecidableEq ρ] [DecidableEq σ] [DecidableEq η]

def ofRow (key : κ) (row : Row ν) : LedgerEntry κ ν := ⟨row.lastModified, key, row.data⟩

/-! ### One batch -/

section Batches

variable {schema : Schema κ ρ σ} {rand : Nat → Draws}

omit [DecidableEq ρ] [DecidableEq σ] [DecidableEq η] in
def Shows (schema : Schema κ ρ σ) (root : LedgerTxnRoot κ ν ρ) (view : View κ ν) : Prop :=
  ∃ entries, Stores schema root entries ∧ ∀ key, entries.lookup key = view key

variable (distinct : Function.Injective schema.primaryKey) {stack after : Stack κ ν ρ}
  {root : LedgerTxnRoot κ ν ρ} {view : View κ ν}

include distinct

end Batches

end ViiCore.Catchup
