import Mathlib.Data.List.Basic

/-!
# Where a text occurs

A text is searched for in one that is put together from parts. An element that the searched text
does not have separates the parts; one that it has exactly once, and the other too, says where it
must be.
-/

namespace Occurs

variable {α : Type*}

end Occurs
