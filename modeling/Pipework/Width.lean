/-! Powers of two and of ten, and the whole numbers that are held in a fixed number of bits. -/

namespace Pipework

def twoTo (n : Nat) : Nat := Nat.pow 2 n

def tenTo (n : Nat) : Nat := Nat.pow 10 n

namespace Width

def unsigned (bits : Nat) (n : Int) : Bool := 0 ≤ n && n < twoTo bits

def least (bits : Nat) : Int := -(twoTo (bits - 1) : Int)

def greatest (bits : Nat) : Int := (twoTo (bits - 1) : Int) - 1

def signed (bits : Nat) (n : Int) : Bool := least bits ≤ n && n ≤ greatest bits

def word (n : Int) : Bool := signed 64 n || unsigned 64 n

end Width

end Pipework
