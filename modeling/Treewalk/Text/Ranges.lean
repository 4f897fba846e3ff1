namespace Treewalk.Text

/-- Whether a character lies in one of the ranges, which include both their ends. -/
def inRanges (ranges : List (Nat × Nat)) (c : Char) : Bool :=
  ranges.any (fun range => range.1 ≤ c.toNat && c.toNat ≤ range.2)

end Treewalk.Text
