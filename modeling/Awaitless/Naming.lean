import Awaitless.Hash.Xxh3

/-!
# A chain of generated names

A default export without a name of its own gets one that depends on nothing but the source text.
The names form a chain of hashes, so that they are the same in every run and practically never
meet a name written by hand.

* `NameChain.start` — the chain that a text begins.
* `NameChain.next` — the next name, and the chain after it.
-/

namespace Awaitless

/-- A position in the chain of names. -/
structure NameChain where
  state : Hash.Wide
deriving Repr, DecidableEq, Inhabited

namespace NameChain

/-- The seed of the first hash. -/
def seed : UInt64 := 0x7976c25e82794241

/-- The chain that a text begins. -/
def start (text : String) : NameChain :=
  ⟨Hash.Xxh3.hash text.toUTF8.data seed⟩

/-- Exactly 32 hexadecimal digits. -/
def hex32 (n : Nat) : List Char :=
  let digits := Nat.toDigits 16 n
  List.replicate (32 - digits.length) '0' ++ digits

/-- The name that a hash stands for. -/
def nameOf (state : Hash.Wide) : String :=
  "var_" ++ String.ofList (hex32 state.toNat)

/-- The next name, and the chain after it. -/
def next (chain : NameChain) : String × NameChain :=
  let state := Hash.Xxh3.hash chain.state.bytes 0
  (nameOf state, ⟨state⟩)

/-- The first `count` names of the chain. -/
def take (chain : NameChain) : (count : Nat) → List String
  | 0 => []
  | count + 1 => chain.next.1 :: chain.next.2.take count

end NameChain

end Awaitless
