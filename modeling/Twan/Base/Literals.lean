/-
# Twan.Base.Literals -- the sizes of finite types

A literal of `Fin n` needs an `n` that is not zero.  The sizes of the source have this by name (256
bits, vectors, priorities and ids, 16 registers, 4 words of a bitmap), and so have those of the small
runs on two or three nodes, so that a literal is one term wherever it is written.
-/
import Mathlib.Algebra.GroupWithZero.Nat

namespace Twan.Base

set_option autoImplicit false

instance neZero_two : NeZero 2 := ⟨by decide⟩

instance neZero_three : NeZero 3 := ⟨by decide⟩

instance neZero_four : NeZero 4 := ⟨by decide⟩

instance neZero_sixteen : NeZero 16 := ⟨by decide⟩

instance neZero_byte : NeZero 256 := ⟨by decide⟩

end Twan.Base
