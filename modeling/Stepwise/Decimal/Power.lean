/-
# Powers

Powers of the two bases of numbers: two, in which doubles are held, and ten, in which
they are written.

Key definitions: `Decimal.twoTo`, `Decimal.tenTo`.
-/
namespace Stepwise
namespace Decimal

/-- A power of two. -/
def twoTo (k : Nat) : Nat := Nat.pow 2 k

/-- A power of ten. -/
def tenTo (k : Nat) : Nat := Nat.pow 10 k

end Decimal
end Stepwise
