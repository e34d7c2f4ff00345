import Mathlib.Data.Nat.Notation

/-!
# Data centres

The tables of `proxy/utils.py` and the name of a data centre behind a base domain.

* `dcDefaultIps`, `dcTestIps` — the addresses.
* `kws` — the host of a data centre.
-/

namespace TgWsProxy

/-- `DC_DEFAULT_IPS`. -/
def dcDefaultIps : List (ℕ × String) :=
  [(1, "149.154.175.50"), (2, "149.154.167.51"), (3, "149.154.175.100"), (4, "149.154.167.91"),
    (5, "149.154.171.5"), (203, "91.105.192.100")]

/-- `DC_TEST_IPS`. -/
def dcTestIps : List (ℕ × String) :=
  [(1, "149.154.175.10"), (2, "149.154.167.40"), (3, "149.154.175.117")]

/-- `'kws%d.%s' % (dc, base_domain)`. -/
def kws (dc : ℕ) (baseDomain : String) : String := "kws" ++ toString dc ++ "." ++ baseDomain

end TgWsProxy
