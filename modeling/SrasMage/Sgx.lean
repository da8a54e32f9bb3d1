import Mathlib.Algebra.Order.Ring.Nat

/-!
This module contains what the components share: the sizes of pages (`common/inc/internal/arch.h` and `util.h`) and
status codes (`common/inc/sgx_error.h`).
-/

namespace Sgx

abbrev sePageSize : Nat := 0x1000

def trimToPage (x : Nat) : Nat := x - x % sePageSize
def roundToPage (x : Nat) : Nat := trimToPage ((x + (sePageSize - 1)) % 2 ^ 64)

def sgxSuccess : Nat := 0x0000
def sgxErrorUnexpected : Nat := 0x0001
def sgxErrorInvalidParameter : Nat := 0x0002
def sgxErrorEnclaveLost : Nat := 0x0004
def sgxErrorInvalidFunction : Nat := 0x1001
def sgxErrorOutOfTcs : Nat := 0x1003
def sgxErrorEnclaveCrashed : Nat := 0x1006
def sgxErrorEcallNotAllowed : Nat := 0x1007
def sgxErrorStackOverrun : Nat := 0x1009

end Sgx
