import Mathlib.Data.List.Perm.Basic
import Mathlib.Data.List.Count
import Mathlib.Tactic.Common

/-!
# The account of a pool

What a pool has made of the connections that its dials returned.

* `Account` — where the connections are.
* `Account.Balanced` — each of them is in one place, and no bucket is overfull.
* `Account.balanced_of_count` — to show it, count one connection at a time.
-/

namespace TgWsProxy

/-- The connections that dials returned, and where they are: idle in a bucket, held by a running
refill, handed to a caller, or closed. -/
structure Account where
  dialled : List ℕ
  buckets : List (List ℕ)
  held : List ℕ
  handed : List ℕ
  closed : List ℕ

namespace Account

/-- Every connection is in exactly one place, there are no others, and the buckets have room. -/
structure Balanced (size : ℕ) (a : Account) : Prop where
  nodup : a.dialled.Nodup
  places : (a.buckets.flatten ++ a.held ++ a.handed ++ a.closed).Perm a.dialled
  fits : ∀ b ∈ a.buckets, b.length ≤ size

lemma balanced_of_count {size : ℕ} {a : Account} (hnodup : a.dialled.Nodup)
    (hcount : ∀ c, a.buckets.flatten.count c + a.held.count c + a.handed.count c +
      a.closed.count c = a.dialled.count c)
    (hfits : ∀ b ∈ a.buckets, b.length ≤ size) : a.Balanced size := by
  refine ⟨hnodup, List.perm_iff_count.mpr fun c => ?_, hfits⟩
  rw [List.count_append, List.count_append, List.count_append]
  exact hcount c

end Account

end TgWsProxy
