/-
**The vocabulary**: how words and operators are spelled, and their codes in a stored program.

* `Keyword.spelling`, `Operator.spelling`, `Token.spelling`: the listed text;
* `vocabulary`: the words and longer operators in the order of their codes; the code of a token is
  its place there (`Token.code?`);
* `longestWord?`: the longest reserved word in front of a run of letters.
-/

import PocketBasic.Number.Notation
import PocketBasic.Token.Basic

namespace PocketBasic

/-! ### Spelling -/

/-- The letters of a reserved word. -/
def Keyword.spelling : Keyword → String
  | .abs => "ABS"
  | .after => "AFTER"
  | .asc => "ASC"
  | .atan => "ATAN"
  | .avail => "AVAIL"
  | .break => "BREAK"
  | .case => "CASE"
  | .catalog => "CATALOG"
  | .chr => "CHR"
  | .close => "CLOSE"
  | .clr => "CLR"
  | .cls => "CLS"
  | .cont => "CONT"
  | .cos => "COS"
  | .data => "DATA"
  | .define => "DEF"
  | .delay => "DELAY"
  | .delete => "DELETE"
  | .dend => "DEND"
  | .dim => "DIM"
  | .do => "DO"
  | .else => "ELSE"
  | .end => "END"
  | .error => "ERROR"
  | .event => "EVENT"
  | .every => "EVERY"
  | .exp => "EXP"
  | .fdisk => "FDISK"
  | .find => "FIND"
  | .fn => "FN"
  | .for => "FOR"
  | .get => "GET"
  | .gosub => "GOSUB"
  | .goto => "GOTO"
  | .himem => "HIMEM"
  | .if => "IF"
  | .input => "INPUT"
  | .instr => "INSTR"
  | .int => "INT"
  | .left => "LEFT"
  | .len => "LEN"
  | .let => "LET"
  | .list => "LIST"
  | .load => "LOAD"
  | .log => "LOG"
  | .malloc => "MALLOC"
  | .mid => "MID"
  | .millis => "MILLIS"
  | .new => "NEW"
  | .next => "NEXT"
  | .on => "ON"
  | .open => "OPEN"
  | .peek => "PEEK"
  | .poke => "POKE"
  | .pow => "POW"
  | .print => "PRINT"
  | .put => "PUT"
  | .read => "READ"
  | .rem => "REM"
  | .repeat => "REPEAT"
  | .restore => "RESTORE"
  | .return => "RETURN"
  | .right => "RIGHT"
  | .rnd => "RND"
  | .run => "RUN"
  | .save => "SAVE"
  | .set => "SET"
  | .sgn => "SGN"
  | .sin => "SIN"
  | .size => "SIZE"
  | .sqr => "SQR"
  | .step => "STEP"
  | .stop => "STOP"
  | .str => "STR"
  | .swend => "SWEND"
  | .switch => "SWITCH"
  | .tab => "TAB"
  | .tan => "TAN"
  | .then => "THEN"
  | .to => "TO"
  | .troff => "TROFF"
  | .tron => "TRON"
  | .until => "UNTIL"
  | .val => "VAL"
  | .wend => "WEND"
  | .while => "WHILE"

def Operator.spelling : Operator → String
  | .plus => "+"
  | .minus => "-"
  | .times => "*"
  | .over => "/"
  | .modulo => "%"
  | .caret => "^"
  | .equal => "="
  | .notEqual => "<>"
  | .less => "<"
  | .lessEqual => "<="
  | .greater => ">"
  | .greaterEqual => ">="
  | .not => "NOT"
  | .and => "AND"
  | .or => "OR"

/-- The listed text of a token. -/
def Token.spelling : Token → Bytes
  | .endOfText => []
  | .number value => value.text
  | .lineNumber line => decimal line.toNat
  | .literal text => 34 :: Unicode.repaired text ++ [34]
  | .scalar name | .array name => name.spelling
  | .string name => name.spelling ++ [36]
  | .word keyword => ascii keyword.spelling
  | .operator op => ascii op.spelling
  | .symbol byte => Unicode.encode [Char.ofNat byte.toNat]

/-! ### Codes -/

/-- The tokens whose code takes one byte. -/
def shortVocabulary : List Token :=
  [.operator .greaterEqual, .operator .lessEqual, .operator .notEqual, .operator .not,
   .operator .and, .operator .or, .word .print, .word .let, .word .input, .word .goto,
   .word .gosub, .word .return, .word .if, .word .for, .word .to, .word .step, .word .next,
   .word .stop, .word .list, .word .new, .word .run, .word .abs, .word .rnd, .word .size,
   .word .rem, .word .len, .word .sgn, .word .peek, .word .dim, .word .clr, .word .himem,
   .word .tab, .word .then, .word .end, .word .poke, .word .cont, .word .sqr, .word .pow,
   .word .break, .word .save, .word .load, .word .get, .word .put, .word .set, .word .cls,
   .word .else, .word .delay, .word .millis, .word .sin, .word .cos, .word .tan, .word .atan,
   .word .log, .word .exp, .word .int, .word .data, .word .read, .word .restore, .word .define,
   .word .fn, .word .on, .word .malloc, .word .find, .word .avail, .word .str, .word .instr,
   .word .val, .word .asc, .word .chr, .word .right, .word .left, .word .mid, .word .tron,
   .word .troff]

/-- The tokens whose code is written behind an escape byte. -/
def longVocabulary : List Token :=
  [.word .catalog, .word .delete, .word .open, .word .close, .word .fdisk, .word .error,
   .word .after, .word .every, .word .event, .word .while, .word .wend, .word .repeat,
   .word .until, .word .switch, .word .case, .word .swend, .word .do, .word .dend]

/-- The words and longer operators in the order of their codes. -/
def vocabulary : List Token := shortVocabulary ++ longVocabulary

/-- The code of a word or a longer operator. -/
def Token.code? (token : Token) : Option Nat := vocabulary.idxOf? token

/-! ### Reserved words in a text -/

/-- The words of the vocabulary with their letters. -/
def lettered : List (Bytes × Token) :=
  vocabulary.filterMap fun token =>
    if (token.spelling.headD 0 |> isLetter) then some (token.spelling, token) else none

/-- The longest reserved word, in letters of either case, that `run` begins with, and its length.
No two words have the same letters, so of two such words one is longer. -/
def longestWord? (run : Bytes) : Option (Nat × Token) :=
  let letters := run.map upper
  lettered.foldl (fun longest (spelling, token) =>
    let length := spelling.length
    if Bytes.startsWith letters spelling && (longest.all fun best => best.1 < length) then
      some (length, token)
    else longest) none

end PocketBasic
