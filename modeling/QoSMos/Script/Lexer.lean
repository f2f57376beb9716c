import QoSMos.Config.Program
import QoSMos.Lib.Numeral
import QoSMos.Lib.Scanner

/-!
# The lexer

The rules of `lexer.l`, in their order, and the tokens that it makes of the text of a script. A text
is a list of characters.
-/

namespace QoSMos.Lexer

open Scanner Pattern

/-! ## Tokens -/

/-- The terminals that have no value. -/
inductive Keyword where
  | saFamily | sinPort | sinAddr | msgName | msgIov | msgFlags | msgControl | cmsgData | cmsgLevel
  | cmsgType | eeErrno | eeOrigin | eeType | eeCode | eeInfo | eeData | scmSec | scmNsec | fd
  | u32 | u64 | ptr | events | revents | onoff | linger | htons | ipv4 | ipv6 | icmp | udp | gre
  | raw | sum | off | key | seq | noneWord | checksum | sequence | present | mpls | label | tc
  | ttl | inetAddr | inet6Addr | ack | eol | ecr | mss | mtu | nop | sack | sackok | md5
  | timestamp | fastOpen | fastOpenExp | tos | flowlabel | flags | val | win | urg | wscale
  | ect01 | ect0 | ect1 | noEcn | ce | id | ellipsis
  deriving DecidableEq, Repr

/-- What the lexer hands to the parser; a snippet still has its delimiters, of which `code` takes
the code, and `floating` has the text that `atof` reads. -/
inductive Token where
  | keyword (keyword : Keyword)
  | option (name : List Char)
  | floating (text : List Char)
  | integer (value : Int)
  | hexInteger (value : Int)
  | word (word : List Char)
  | string (text : List Char)
  | backQuoted (text : List Char)
  | character (c : Char)
  | code (snippet : List Char)
  | ipv4Addr (text : List Char)
  | ipv6Addr (text : List Char)
  deriving DecidableEq, Repr

/-- The words that are terminals of their own, and the ellipsis. -/
def keywords : List (String × Keyword) :=
  [("sa_family", .saFamily), ("sin_port", .sinPort), ("sin_addr", .sinAddr),
    ("msg_name", .msgName), ("msg_iov", .msgIov), ("msg_flags", .msgFlags),
    ("msg_control", .msgControl), ("cmsg_data", .cmsgData), ("cmsg_level", .cmsgLevel),
    ("cmsg_type", .cmsgType), ("ee_errno", .eeErrno), ("ee_origin", .eeOrigin),
    ("ee_type", .eeType), ("ee_code", .eeCode), ("ee_info", .eeInfo), ("ee_data", .eeData),
    ("scm_sec", .scmSec), ("scm_nsec", .scmNsec), ("fd", .fd), ("u32", .u32), ("u64", .u64),
    ("ptr", .ptr), ("events", .events), ("revents", .revents), ("onoff", .onoff),
    ("linger", .linger), ("htons", .htons), ("ipv4", .ipv4), ("ipv6", .ipv6), ("icmp", .icmp),
    ("udp", .udp), ("GREv0", .gre), ("gre", .gre), ("raw", .raw), ("sum", .sum), ("off", .off),
    ("key", .key), ("seq", .seq), ("none", .noneWord), ("checksum", .checksum),
    ("sequence#", .sequence), ("present", .present), ("mpls", .mpls), ("label", .label),
    ("tc", .tc), ("ttl", .ttl), ("inet_addr", .inetAddr), ("inet6_addr", .inet6Addr),
    ("ack", .ack), ("eol", .eol), ("ecr", .ecr), ("mss", .mss), ("mtu", .mtu), ("nop", .nop),
    ("sack", .sack), ("sackOK", .sackok), ("md5", .md5), ("TS", .timestamp), ("FO", .fastOpen),
    ("FOEXP", .fastOpenExp), ("tos", .tos), ("flowlabel", .flowlabel), ("flags", .flags),
    ("Flags", .flags), ("val", .val), ("win", .win), ("urg", .urg), ("wscale", .wscale),
    ("ect01", .ect01), ("ect0", .ect0), ("ect1", .ect1), ("noecn", .noEcn), ("ce", .ce),
    ("id", .id), ("...", .ellipsis)]

/-! ## Patterns -/

def isDigit (c : Char) : Bool := c.isDigit

/-- `[0-9a-fA-F]` -/
def isHexDigit (c : Char) : Bool := c.isDigit || ('a' ≤ c && c ≤ 'f') || ('A' ≤ c && c ≤ 'F')

/-- `[a-zA-Z0-9_]` -/
def isWordChar (c : Char) : Bool := c.isAlphanum || c = '_'

/-- `[ \t\n]` -/
def isBlank (c : Char) : Bool := c = ' ' || c = '\t' || c = '\n'

/-- The character itself. -/
def char (c : Char) : Pattern Char := one (· = c)

/-- `[^c]` -/
def charBut (c : Char) : Pattern Char := one (· ≠ c)

/-- `--[a-zA-Z0-9_]+` -/
def optionPattern : Pattern Char := seq (char '-') (seq (char '-') (plus (one isWordChar)))

/-- `[-]?[0-9]*[.][0-9]+` -/
def floatPattern : Pattern Char :=
  seq (optional (char '-')) (seq (star (one isDigit)) (seq (char '.') (plus (one isDigit))))

/-- `[-]?[0-9]+` -/
def integerPattern : Pattern Char := seq (optional (char '-')) (plus (one isDigit))

/-- `0x[0-9a-fA-F]+` -/
def hexPattern : Pattern Char := seq (char '0') (seq (char 'x') (plus (one isHexDigit)))

def wordPattern : Pattern Char := plus (one isWordChar)

/-- Between two quotes, where a backslash may stand in front of any character but a newline. -/
def quotedPattern (quote : Char) : Pattern Char :=
  seq (char quote) (seq (star (alt (seq (char '\\') (charBut '\n')) (charBut quote))) (char quote))

/-- `cpp_comment` -/
def cppComment : Pattern Char :=
  seq (char '/') (seq (char '/') (seq (star (charBut '\n')) (char '\n')))

/-- From `a b` to `x y`, where `x` in between has to have something else than `y` behind it. -/
def delimited (a b x y : Char) : Pattern Char :=
  seq (char a) (seq (char b)
    (seq (star (alt (charBut x) (seq (char x) (charBut y)))) (seq (char x) (char y))))

/-- `c_comment` -/
def cComment : Pattern Char := delimited '/' '*' '*' '/'

/-- `code` -/
def codePattern : Pattern Char := delimited '%' '{' '}' '%'

/-- `ipv4_addr` -/
def ipv4Addr : Pattern Char :=
  let number := plus (one isDigit)
  seq number (seq (char '.') (seq number (seq (char '.') (seq number (seq (char '.') number)))))

/-- `seg` -/
def seg : Pattern Char := between 1 3 (one isHexDigit)

/-- `{seg}[:]` -/
def segColon : Pattern Char := seq seg (char ':')

/-- `[:]{seg}` -/
def colonSeg : Pattern Char := seq (char ':') seg

/-- `ipv6_addr`, with `v0` to `v12` in their order. -/
def ipv6Addr : Pattern Char :=
  let colon := char ':'
  let ffff := literal ['f', 'f', 'f', 'f']
  [seq colon colon,
    seq (times 7 segColon) seg,
    seq (between 1 6 segColon) colon,
    seq (between 1 5 segColon) (seq colon seg),
    seq (between 1 4 segColon) (between 1 1 colonSeg),
    seq (between 1 3 segColon) (between 1 2 colonSeg),
    seq (between 1 2 segColon) (between 1 3 colonSeg),
    seq (between 1 1 segColon) (between 1 4 colonSeg),
    seq segColon (between 1 5 colonSeg),
    seq colon (between 1 6 colonSeg),
    seq colon (seq colon (seq ffff (seq colon ipv4Addr))),
    seq colon (seq colon (seq ffff (seq colon
      (seq (between 1 3 (char '0')) (seq colon ipv4Addr))))),
    seq (between 1 3 segColon) (seq colon ipv4Addr)].foldr alt nothing

/-! ## Actions -/

/-- The characters of a string of C. -/
def cString (text : List Char) : List Char := text.takeWhile (· ≠ '\x00')

/-- `option` -/
def option (s : List Char) : List Char := s.drop 2

/-- `quoted` -/
def quoted (s : List Char) : List Char :=
  let s := cString s
  (s.drop 1).take (s.length - 2)

/-- `word` of the text that was matched. -/
def word (defines : List Configuration.Definition) (text : List Char) : Token :=
  match Configuration.definitionGet defines (String.ofList text) with
  | some value =>
    let value := value.toList
    if value.head? = some '"' then .string (quoted value)
    else if value.head? = some '`' then .backQuoted (quoted value)
    else .word value
  | none => .word text

def hexDigit (c : Char) : Nat :=
  if c.isDigit then c.toNat - 48 else if 'a' ≤ c then c.toNat - 87 else c.toNat - 55

/-- `hextol`; `strtol` returns the largest number where there is more. -/
def hextol (s : List Char) : Int :=
  min ((s.drop 2).foldl (fun n c => 16 * n + hexDigit c) 0) Numeral.LONG_MAX

/-- `atoll` -/
def atoll (s : List Char) : Int := (Numeral.strtol s).value

def keywordRule (k : String × Keyword) : Rule Char (Option Token) :=
  ⟨literal k.1.toList, fun _ => some (.keyword k.2)⟩

def keywordRules : List (Rule Char (Option Token)) := keywords.map keywordRule

/-- The rules between those for keywords and the one for words. -/
def numberRules : List (Rule Char (Option Token)) :=
  [⟨optionPattern, fun yytext => some (.option (option yytext))⟩,
    ⟨floatPattern, fun yytext => some (.floating yytext)⟩,
    ⟨integerPattern, fun yytext => some (.integer (atoll yytext))⟩,
    ⟨hexPattern, fun yytext => some (.hexInteger (hextol yytext))⟩]

def wordRule (defines : List Configuration.Definition) : Rule Char (Option Token) :=
  ⟨wordPattern, fun yytext => some (word defines yytext)⟩

/-- The rules behind the one for words. -/
def otherRules : List (Rule Char (Option Token)) :=
  [⟨quotedPattern '"', fun yytext => some (.string (quoted yytext))⟩,
    ⟨quotedPattern '`', fun yytext => some (.backQuoted (quoted yytext))⟩,
    ⟨one fun c => !isBlank c, fun yytext => yytext.head?.map Token.character⟩,
    ⟨plus (one isBlank), fun _ => none⟩,
    ⟨cppComment, fun _ => none⟩,
    ⟨cComment, fun _ => none⟩,
    ⟨codePattern, fun yytext => some (.code yytext)⟩,
    ⟨ipv4Addr, fun yytext => some (.ipv4Addr yytext)⟩,
    ⟨ipv6Addr, fun yytext => some (.ipv6Addr yytext)⟩]

/-- The rules of the lexer; `none` is what is ignored. -/
def rules (defines : List Configuration.Definition) : List (Rule Char (Option Token)) :=
  keywordRules ++ numberRules ++ wordRule defines :: otherRules

/-- The tokens of what was matched, from a line on, each with the line in which it ends. -/
def locate : Nat → List (List Char × Option (Option Token)) → List (Token × Nat)
  | _, [] => []
  | line, (yytext, result) :: results =>
    let yylineno := line + yytext.count '\n'
    match result.join with
    | some token => (token, yylineno) :: locate yylineno results
    | none => locate yylineno results

/-- The tokens of a text that starts in this line. -/
def lex (defines : List Configuration.Definition) (line : Nat) (text : List Char) :
    List (Token × Nat) :=
  locate line (scan (rules defines) text)

end QoSMos.Lexer
