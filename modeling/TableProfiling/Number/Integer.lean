namespace TableProfiling

-- The digits of an integer, after a minus sign if it is negative.
def integerChars (n : Int) : List Char :=
  if n < 0 then '-' :: Nat.toDigits 10 n.natAbs else Nat.toDigits 10 n.natAbs

def integerText (n : Int) : String :=
  .ofList (integerChars n)

end TableProfiling
