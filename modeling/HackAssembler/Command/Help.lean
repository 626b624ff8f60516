/-! # Help

The texts that the command shows about itself.
-/

namespace HackAssembler.Help

def version : String := "hackasm 0.1.0"

def usage : List String :=
  ["Usage:",
    "  hackasm [OPTIONS] [INPUT]"]

def text : List String :=
  [version,
    "  Assembler for the Hack 16-bit computer",
    ""] ++ usage ++
  ["",
    "Arguments:",
    "  [INPUT]  Input file [default: main.asm]",
    "",
    "Options:",
    "  -o, --output <OUTPUT>  Output file [default: input with \x60.hack\x60 extension]",
    "  -t, --tables <TABLES>  YAML file overriding the symbol and mnemonic tables",
    "  -d, --dump             Dump assembly listing",
    "  -h, --help             Print help",
    "  -V, --version          Print version"]

end HackAssembler.Help
