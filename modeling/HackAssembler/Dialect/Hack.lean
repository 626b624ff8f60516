import HackAssembler.Dialect.Basic

/-! # The built-in dialect

The predefined symbols of the Hack computer are the five pointers at the start of memory, sixteen
registers and the two memory maps. Of the computations, those with the first pattern bit clear use
the address register and those with it set use memory.
-/

namespace HackAssembler.Dialect

def screenAddress : Nat := 0x4000

def keyboardAddress : Nat := 0x6000

def hackSymbols : OrderedMap Nat :=
  .ofList <|
    [("SP", 0), ("LCL", 1), ("ARG", 2), ("THIS", 3), ("THAT", 4)] ++
    (List.range 16).map (fun register => ("R" ++ toString register, register)) ++
    [("SCREEN", screenAddress), ("KBD", keyboardAddress)]

/-- The predefined symbols stand in the order in which they are written. -/
theorem toList_hackSymbols :
    hackSymbols.toList =
      [("SP", 0), ("LCL", 1), ("ARG", 2), ("THIS", 3), ("THAT", 4)] ++
      (List.range 16).map (fun register => ("R" ++ toString register, register)) ++
      [("SCREEN", screenAddress), ("KBD", keyboardAddress)] :=
  OrderedMap.toList_ofList (by decide)

def hackComp : Codebook .comp where
  entries :=
    [("0", 0b0101010), ("1", 0b0111111), ("-1", 0b0111010), ("D", 0b0001100), ("A", 0b0110000),
      ("!D", 0b0001101), ("!A", 0b0110001), ("-D", 0b0001111), ("-A", 0b0110011),
      ("D+1", 0b0011111), ("A+1", 0b0110111), ("D-1", 0b0001110), ("A-1", 0b0110010),
      ("D+A", 0b0000010), ("D-A", 0b0010011), ("A-D", 0b0000111), ("D&A", 0b0000000),
      ("D|A", 0b0010101), ("M", 0b1110000), ("!M", 0b1110001), ("-M", 0b1110011),
      ("M+1", 0b1110111), ("M-1", 0b1110010), ("D+M", 0b1000010), ("D-M", 0b1010011),
      ("M-D", 0b1000111), ("D&M", 0b1000000), ("D|M", 0b1010101)]
  mnemonics_nodup := by decide
  patterns_nodup := by decide
  patterns_fit := by decide
  patterns_unreserved := by decide

def hackDest : Codebook .dest where
  entries :=
    [("M", 0b001), ("D", 0b010), ("MD", 0b011), ("A", 0b100), ("AM", 0b101), ("AD", 0b110),
      ("AMD", 0b111)]
  mnemonics_nodup := by decide
  patterns_nodup := by decide
  patterns_fit := by decide
  patterns_unreserved := by decide

def hackJump : Codebook .jump where
  entries :=
    [("JGT", 0b001), ("JEQ", 0b010), ("JGE", 0b011), ("JLT", 0b100), ("JNE", 0b101),
      ("JLE", 0b110), ("JMP", 0b111)]
  mnemonics_nodup := by decide
  patterns_nodup := by decide
  patterns_fit := by decide
  patterns_unreserved := by decide

def hack : Dialect where
  symbols := hackSymbols
  comp := hackComp
  dest := hackDest
  jump := hackJump

end HackAssembler.Dialect
