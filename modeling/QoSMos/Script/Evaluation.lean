import QoSMos.Lib.Postorder
import QoSMos.Script.Program

/-!
# What expressions evaluate to

`Denotes` is the value of an expression and `Legal` says which have one. The two are those of
`evaluate_expression_list`, and its result is as it is documented, except that no message is left
where the first illegal node is an `epoll_event` that names none of its data members.
-/

namespace QoSMos.Script

open Postorder Returns

/-! ## Meaning -/

/-- The value of a symbol is that of its first entry, the common table before the other. -/
def SymbolTables.value (tables : SymbolTables) (name : String) : Option Int64 :=
  ((tables.crossPlatformSymbols ++ tables.platformSymbols).find? (·.name = name)).map
  IntSymbol.value

/-- `in` evaluates to `out`. -/
inductive Denotes (tables : SymbolTables) : Expression → Expression → Prop
  | ellipsis : Denotes tables .ellipsis .ellipsis
  | integer {num} : Denotes tables (.integer num) (.integer num)
  | linger {onoff linger} : Denotes tables (.linger onoff linger) (.linger onoff linger)
  | word {string num} (hvalue : tables.value string = some num) :
      Denotes tables (.word string) (.integer num)
  | string {string out} (hvalue : unescapeCstringExpression string = .ok out) :
      Denotes tables (.string string) (.string out)
  | gre {gre} : Denotes tables (.gre gre) (.gre gre.copy)
  | in6Addr {address} : Denotes tables (.in6Addr address) (.in6Addr address)
  | socketAddressIpv4 {address} :
      Denotes tables (.socketAddressIpv4 address) (.socketAddressIpv4 address)
  | socketAddressIpv6 {address} :
      Denotes tables (.socketAddressIpv6 address) (.socketAddressIpv6 address)
  | or {lhs rhs m n} (hlhs : Denotes tables lhs (.integer m))
      (hrhs : Denotes tables rhs (.integer n)) :
      Denotes tables (.binary "|" lhs rhs) (.integer (m ||| n))
  | equals {lhs rhs lhs' rhs'} (hlhs : Denotes tables lhs lhs') (hrhs : Denotes tables rhs rhs') :
      Denotes tables (.binary "=" lhs rhs) (.binary "=" lhs' rhs')
  | list {list out} (hlist : List.Forall₂ (Denotes tables) list out) :
      Denotes tables (.list list) (.list out)
  | iovec {base len base' len'} (hbase : Denotes tables base base')
      (hlen : Denotes tables len len') : Denotes tables (.iovec base len) (.iovec base' len')
  | msghdr {name namelen iov iovlen control flags name' namelen' iov' iovlen' control' flags'}
      (hname : Denotes tables name name') (hnamelen : Denotes tables namelen namelen')
      (hiov : Denotes tables iov iov') (hiovlen : Denotes tables iovlen iovlen')
      (hcontrol : Denotes tables control control') (hflags : Denotes tables flags flags') :
      Denotes tables (.msghdr name namelen iov iovlen control flags)
        (.msghdr name' namelen' iov' iovlen' control' flags')
  | cmsg {level type data level' type' data'} (hlevel : Denotes tables level level')
      (htype : Denotes tables type type') (hdata : Denotes tables data data') :
      Denotes tables (.cmsg level type data) (.cmsg level' type' data')
  | pollfd {fd events revents fd' events' revents'} (hfd : Denotes tables fd fd')
      (hevents : Denotes tables events events') (hrevents : Denotes tables revents revents') :
      Denotes tables (.pollfd fd events revents) (.pollfd fd' events' revents')
  | mplsStack {stack} : Denotes tables (.mplsStack stack) (.mplsStack stack)
  | scmTimestamping {ts} : Denotes tables (.scmTimestamping ts) (.scmTimestamping ts)
  | sockExtendedErr {errno origin type code info data errno' origin' type' code' info' data'}
      (herrno : Denotes tables errno errno') (horigin : Denotes tables origin origin')
      (htype : Denotes tables type type') (hcode : Denotes tables code code')
      (hinfo : Denotes tables info info') (hdata : Denotes tables data data') :
      Denotes tables (.sockExtendedErr errno origin type code info data)
        (.sockExtendedErr errno' origin' type' code' info' data')
  | epollevPtr {events ptr fd u32 u64 events' ptr'} (hevents : Denotes tables events events')
      (hptr : Denotes tables ptr ptr') :
      Denotes tables (.epollev events (some ptr) fd u32 u64)
        (.epollev events' (some ptr') none none none)
  | epollevFd {events fd u32 u64 events' fd'} (hevents : Denotes tables events events')
      (hfd : Denotes tables fd fd') :
      Denotes tables (.epollev events none (some fd) u32 u64)
        (.epollev events' none (some fd') none none)
  | epollevU32 {events u32 u64 events' u32'} (hevents : Denotes tables events events')
      (hu32 : Denotes tables u32 u32') :
      Denotes tables (.epollev events none none (some u32) u64)
        (.epollev events' none none (some u32') none)
  | epollevU64 {events u64 events' u64'} (hevents : Denotes tables events events')
      (hu64 : Denotes tables u64 u64') :
      Denotes tables (.epollev events none none none (some u64))
        (.epollev events' none none none (some u64'))

/-- The expressions right below a node, in the order of its members. An `epoll_event` has the
data member that it names: the first, if there are more. -/
def Expression.children : Expression → List Expression
  | .binary _ lhs rhs => [lhs, rhs]
  | .list elements => elements
  | .iovec iovBase iovLen => [iovBase, iovLen]
  | .msghdr msgName msgNamelen msgIov msgIovlen msgControl msgFlags =>
    [msgName, msgNamelen, msgIov, msgIovlen, msgControl, msgFlags]
  | .cmsg cmsgLevel cmsgType cmsgData => [cmsgLevel, cmsgType, cmsgData]
  | .pollfd fd events revents => [fd, events, revents]
  | .sockExtendedErr eeErrno eeOrigin eeType eeCode eeInfo eeData =>
    [eeErrno, eeOrigin, eeType, eeCode, eeInfo, eeData]
  | .epollev events ptr fd u32 u64 => events :: (ptr.or (fd.or (u32.or u64))).toList
  | _ => []

def Expression.IsWord (e : Expression) : Prop := ∃ string, e = .word string

/-- An `epoll_event` that names none of its data members. -/
def Expression.IsUnnamed (e : Expression) : Prop :=
  ∃ events, e = .epollev events none none none none

/-- What is asked of a node by itself. -/
@[mk_iff]
structure LegalNode (tables : SymbolTables) (e : Expression) : Prop where
  word : ∀ string, e = .word string → tables.value string ≠ none
  string : ∀ string, e = .string string → ∃ out, unescapeCstringExpression string = .ok out
  operator : ∀ op lhs rhs, e = .binary op lhs rhs → op = "=" ∨ op = "|"
  operands : ∀ lhs rhs, e = .binary "|" lhs rhs →
    ∃ m n, Denotes tables lhs (.integer m) ∧ Denotes tables rhs (.integer n)
  epollev : ¬ e.IsUnnamed

/-- All nodes of an expression are legal. -/
def Legal (tables : SymbolTables) : Expression → Prop :=
  Everywhere Expression.children (LegalNode tables)

/-- The result of `evaluate_expression_list` is as it should be. -/
structure EvaluatedRight (tables : SymbolTables) (inList : List Expression)
    (result : Evaluated) : Prop where
  status : result.status = .statusOk ↔ ∀ e ∈ inList, Legal tables e
  values : result.status = .statusOk →
    List.Forall₂ (Denotes tables) inList result.outList ∧
      ∀ e ∈ result.outList, Everywhere Expression.children (¬ ·.IsWord) e
  failure : result.status = .statusErr → result.outList = [] ∧ result.error ≠ none

/-- Of the nodes that are not legal, the first that is evaluated names no data member. -/
def StopsUnnamed (tables : SymbolTables) : List Expression → Prop :=
  FirstFaultIn Expression.children (LegalNode tables) Expression.IsUnnamed

/-! ## One node -/

/-- What `evaluate` makes of the values of the children of a node. -/
def combine (tables : SymbolTables) : Expression → List Expression → Evaluation Expression
  | .word string, _ => return .integer (← symbolToInt tables string)
  | .string string, _ => return .string (← unescapeCstringExpression string)
  | .gre gre, _ => pure (.gre gre.copy)
  | .binary op _ _, [lhs, rhs] => evaluateBinaryExpression op lhs rhs
  | .list _, out => pure (.list out)
  | .iovec _ _, [iovBase, iovLen] => pure (.iovec iovBase iovLen)
  | .msghdr _ _ _ _ _ _, [name, namelen, iov, iovlen, control, flags] =>
    pure (.msghdr name namelen iov iovlen control flags)
  | .cmsg _ _ _, [level, type, data] => pure (.cmsg level type data)
  | .pollfd _ _ _, [fd, events, revents] => pure (.pollfd fd events revents)
  | .sockExtendedErr _ _ _ _ _ _, [errno, origin, type, code, info, data] =>
    pure (.sockExtendedErr errno origin type code info data)
  | .epollev _ (some _) _ _ _, [events, ptr] => pure (.epollev events (some ptr) none none none)
  | .epollev _ none (some _) _ _, [events, fd] => pure (.epollev events none (some fd) none none)
  | .epollev _ none none (some _) _, [events, u32] =>
    pure (.epollev events none none (some u32) none)
  | .epollev _ none none none (some _), [events, u64] =>
    pure (.epollev events none none none (some u64))
  | .epollev _ none none none none, _ => .error none
  | e, _ => pure e

section Node

variable {tables : SymbolTables} {e d v : Expression} {l vs : List Expression}

theorem evaluateList_eq_mapM : evaluateList tables l = l.mapM (evaluate tables) := by
  induction l with
  | nil => rfl
  | cons e l ih =>
    rw [evaluateList, List.mapM_cons, ih]

theorem sizeOf_lt_of_mem_children (h : d ∈ e.children) : sizeOf d < sizeOf e := by
  cases e with
  | list elements =>
    have hlt := List.sizeOf_lt_of_mem h
    simp only [Expression.children, Expression.list.sizeOf_spec] at hlt ⊢
    omega
  | binary op lhs rhs =>
    simp only [Expression.children, List.mem_cons, List.not_mem_nil, or_false] at h
    simp only [Expression.binary.sizeOf_spec]
    rcases h with rfl | rfl <;> omega
  | iovec iovBase iovLen =>
    simp only [Expression.children, List.mem_cons, List.not_mem_nil, or_false] at h
    simp only [Expression.iovec.sizeOf_spec]
    rcases h with rfl | rfl <;> omega
  | cmsg | pollfd =>
    simp only [Expression.children, List.mem_cons, List.not_mem_nil, or_false] at h
    rcases h with rfl | rfl | rfl <;> simp <;> omega
  | msghdr | sockExtendedErr =>
    simp only [Expression.children, List.mem_cons, List.not_mem_nil, or_false] at h
    rcases h with rfl | rfl | rfl | rfl | rfl | rfl <;> simp <;> omega
  | epollev events ptr fd u32 u64 =>
    obtain rfl | hmember := List.mem_cons.mp h
    · simp only [Expression.epollev.sizeOf_spec]
      omega
    · rw [Option.mem_toList] at hmember
      have hor : ptr = some d ∨ fd = some d ∨ u32 = some d ∨ u64 = some d := by
        cases ptr <;> cases fd <;> cases u32 <;> simp_all
      rcases hor with rfl | rfl | rfl | rfl <;> simp <;> omega
  | _ => cases h

/-- `evaluate` evaluates the children of a node and combines their values. -/
theorem evaluates : Evaluates Expression.children (combine tables) (evaluate tables) := by
  refine ⟨Subrelation.wf sizeOf_lt_of_mem_children (measure sizeOf).wf, fun e => ?_⟩
  cases e with
  | list elements =>
    rw [evaluate, evaluateList_eq_mapM]
    rfl
  | epollev events ptr fd u32 u64 =>
    cases ptr <;> cases fd <;> cases u32 <;> cases u64 <;>
      simp [evaluate, Expression.children, combine]
  | binary | iovec | msghdr | cmsg | pollfd | sockExtendedErr =>
    simp [evaluate, Expression.children, combine]
  | _ => rfl

theorem lookupIntSymbol_eq_find? {name : String} (symbols : List IntSymbol) :
    lookupIntSymbol name symbols = (symbols.find? (·.name = name)).map IntSymbol.value := by
  induction symbols with
  | nil => rfl
  | cons symbol symbols ih =>
    by_cases h : name = symbol.name
    · simp [lookupIntSymbol, h]
    · have h' : ¬ symbol.name = name := fun heq => h heq.symm
      simp [lookupIntSymbol, h, h', ih]

theorem symbolToInt_eq_ok_iff {name : String} {num : Int64} :
    symbolToInt tables name = .ok num ↔ tables.value name = some num := by
  rw [symbolToInt, SymbolTables.value, lookupIntSymbol_eq_find?, lookupIntSymbol_eq_find?,
    List.find?_append, Option.map_or]
  cases (tables.crossPlatformSymbols.find? (·.name = name)).map IntSymbol.value with
  | some value => simp
  | none =>
    cases (tables.platformSymbols.find? (·.name = name)).map IntSymbol.value <;> simp

theorem evaluateBinaryExpression_eq_ok_iff {op : String} {lhs rhs : Expression} :
    evaluateBinaryExpression op lhs rhs = .ok v ↔
      (op = "|" ∧ ∃ m n, lhs = .integer m ∧ rhs = .integer n ∧ .integer (m ||| n) = v) ∨
        op = "=" ∧ .binary op lhs rhs = v := by
  unfold evaluateBinaryExpression
  by_cases hor : op = "|"
  · subst hor
    cases lhs with
    | integer m => cases rhs <;> simp
    | _ => simp
  · by_cases heq : op = "=" <;> simp [hor, heq]

/-- The values of the children and of the node. -/
theorem denotes_iff : Denotes tables e v ↔
    ∃ vs, List.Forall₂ (Denotes tables) e.children vs ∧ combine tables e vs = .ok v := by
  constructor
  · intro h
    cases h with
    | word hvalue => exact ⟨[], .nil, by rw [combine, symbolToInt_eq_ok_iff.mpr hvalue]; rfl⟩
    | string hvalue => exact ⟨[], .nil, by rw [combine, hvalue]; rfl⟩
    | or hlhs hrhs => exact ⟨_, .cons hlhs (.cons hrhs .nil), rfl⟩
    | equals hlhs hrhs => exact ⟨_, .cons hlhs (.cons hrhs .nil), rfl⟩
    | list hlist => exact ⟨_, hlist, rfl⟩
    | iovec hbase hlen => exact ⟨_, .cons hbase (.cons hlen .nil), rfl⟩
    | msghdr h1 h2 h3 h4 h5 h6 =>
      exact ⟨_, .cons h1 (.cons h2 (.cons h3 (.cons h4 (.cons h5 (.cons h6 .nil))))), rfl⟩
    | cmsg h1 h2 h3 => exact ⟨_, .cons h1 (.cons h2 (.cons h3 .nil)), rfl⟩
    | pollfd h1 h2 h3 => exact ⟨_, .cons h1 (.cons h2 (.cons h3 .nil)), rfl⟩
    | sockExtendedErr h1 h2 h3 h4 h5 h6 =>
      exact ⟨_, .cons h1 (.cons h2 (.cons h3 (.cons h4 (.cons h5 (.cons h6 .nil))))), rfl⟩
    | epollevPtr hevents hmember | epollevFd hevents hmember | epollevU32 hevents hmember
    | epollevU64 hevents hmember => exact ⟨_, .cons hevents (.cons hmember .nil), rfl⟩
    | ellipsis | integer | linger | gre | in6Addr | socketAddressIpv4 | socketAddressIpv6
    | mplsStack | scmTimestamping => exact ⟨[], .nil, rfl⟩
  · rintro ⟨vs, hvs, hcombine⟩
    cases e with
    | word string =>
      obtain ⟨num, hnum, hv⟩ := bind_eq_ok_iff.mp hcombine
      obtain rfl := pure_eq_ok_iff.mp hv
      exact .word (symbolToInt_eq_ok_iff.mp hnum)
    | string string =>
      obtain ⟨out, hout, hv⟩ := bind_eq_ok_iff.mp hcombine
      obtain rfl := pure_eq_ok_iff.mp hv
      exact .string hout
    | binary op lhs rhs =>
      rcases hvs with _ | ⟨hlhs, _ | ⟨hrhs, _ | _⟩⟩
      obtain ⟨rfl, m, n, rfl, rfl, rfl⟩ | ⟨rfl, rfl⟩ :=
        evaluateBinaryExpression_eq_ok_iff.mp hcombine
      · exact .or hlhs hrhs
      · exact .equals hlhs hrhs
    | list elements =>
      obtain rfl := pure_eq_ok_iff.mp hcombine
      exact .list hvs
    | iovec =>
      rcases hvs with _ | ⟨h1, _ | ⟨h2, _ | _⟩⟩
      obtain rfl := pure_eq_ok_iff.mp hcombine
      exact .iovec h1 h2
    | msghdr =>
      rcases hvs with _ | ⟨h1, _ | ⟨h2, _ | ⟨h3, _ | ⟨h4, _ | ⟨h5, _ | ⟨h6, _ | _⟩⟩⟩⟩⟩⟩
      obtain rfl := pure_eq_ok_iff.mp hcombine
      exact .msghdr h1 h2 h3 h4 h5 h6
    | cmsg =>
      rcases hvs with _ | ⟨h1, _ | ⟨h2, _ | ⟨h3, _ | _⟩⟩⟩
      obtain rfl := pure_eq_ok_iff.mp hcombine
      exact .cmsg h1 h2 h3
    | pollfd =>
      rcases hvs with _ | ⟨h1, _ | ⟨h2, _ | ⟨h3, _ | _⟩⟩⟩
      obtain rfl := pure_eq_ok_iff.mp hcombine
      exact .pollfd h1 h2 h3
    | sockExtendedErr =>
      rcases hvs with _ | ⟨h1, _ | ⟨h2, _ | ⟨h3, _ | ⟨h4, _ | ⟨h5, _ | ⟨h6, _ | _⟩⟩⟩⟩⟩⟩
      obtain rfl := pure_eq_ok_iff.mp hcombine
      exact .sockExtendedErr h1 h2 h3 h4 h5 h6
    | epollev events ptr fd u32 u64 =>
      rcases ptr with _ | ptr
      · rcases fd with _ | fd
        · rcases u32 with _ | u32
          · rcases u64 with _ | u64
            · cases hcombine
            · rcases hvs with _ | ⟨hevents, _ | ⟨hmember, _ | _⟩⟩
              obtain rfl := pure_eq_ok_iff.mp hcombine
              exact .epollevU64 hevents hmember
          · rcases hvs with _ | ⟨hevents, _ | ⟨hmember, _ | _⟩⟩
            obtain rfl := pure_eq_ok_iff.mp hcombine
            exact .epollevU32 hevents hmember
        · rcases hvs with _ | ⟨hevents, _ | ⟨hmember, _ | _⟩⟩
          obtain rfl := pure_eq_ok_iff.mp hcombine
          exact .epollevFd hevents hmember
      · rcases hvs with _ | ⟨hevents, _ | ⟨hmember, _ | _⟩⟩
        obtain rfl := pure_eq_ok_iff.mp hcombine
        exact .epollevPtr hevents hmember
    | ellipsis | integer | linger | gre | in6Addr | socketAddressIpv4 | socketAddressIpv6
    | mplsStack | scmTimestamping =>
      obtain rfl := pure_eq_ok_iff.mp hcombine
      constructor

theorem exists_of_mem_forall₂ {l vs : List Expression}
    (h : List.Forall₂ (Denotes tables) l vs) (hd : d ∈ vs) : ∃ c, Denotes tables c d := by
  induction h with
  | nil => cases hd
  | cons hv _ ih =>
    rcases List.mem_cons.mp hd with rfl | hd
    · exact ⟨_, hv⟩
    · exact ih hd

/-- What is in a value is a value. -/
theorem Denotes.of_mem_children (h : Denotes tables e v) (hd : d ∈ v.children) :
    ∃ c, Denotes tables c d := by
  cases h with
  | list hlist => exact exists_of_mem_forall₂ hlist hd
  | equals h1 h2 | iovec h1 h2 => exact exists_of_mem_forall₂ (.cons h1 (.cons h2 .nil)) hd
  | cmsg h1 h2 h3 | pollfd h1 h2 h3 =>
    exact exists_of_mem_forall₂ (.cons h1 (.cons h2 (.cons h3 .nil))) hd
  | msghdr h1 h2 h3 h4 h5 h6 | sockExtendedErr h1 h2 h3 h4 h5 h6 =>
    exact exists_of_mem_forall₂
      (.cons h1 (.cons h2 (.cons h3 (.cons h4 (.cons h5 (.cons h6 .nil)))))) hd
  | epollevPtr h1 h2 | epollevFd h1 h2 | epollevU32 h1 h2 | epollevU64 h1 h2 =>
    exact exists_of_mem_forall₂ (.cons h1 (.cons h2 .nil)) hd
  | _ => cases hd

/-- `evaluate` returns what an expression denotes. -/
theorem evaluate_eq_ok_iff : evaluate tables e = .ok v ↔ Denotes tables e v := by
  induction e using (@evaluates tables).wf.induction generalizing v with
  | _ e ih =>
    rw [evaluates.step, bind_eq_ok_iff, denotes_iff]
    refine exists_congr fun vs => and_congr_left fun _ => ?_
    rw [mapM_eq_ok_iff]
    exact forall₂_congr_of_mem fun c hc _ => ih c hc

/-- A node at which nothing can fail. -/
def Expression.IsPlain : Expression → Prop
  | .word _ | .string _ | .binary _ _ _ | .epollev _ none none none none => False
  | _ => True

theorem Expression.isPlain_or (e : Expression) : e.IsPlain ∨ e.IsUnnamed ∨
    (∃ name, e = .word name) ∨ (∃ string, e = .string string) ∨
    ∃ op lhs rhs, e = .binary op lhs rhs := by
  unfold Expression.IsPlain Expression.IsUnnamed
  split <;> simp

theorem Expression.IsPlain.legalNode (h : e.IsPlain) : LegalNode tables e := by
  refine ⟨?_, ?_, ?_, ?_, ?_⟩
  · rintro string rfl
    exact h.elim
  · rintro string rfl
    exact h.elim
  · rintro op lhs rhs rfl
    exact h.elim
  · rintro lhs rhs rfl
    exact h.elim
  · rintro ⟨events, rfl⟩
    exact h.elim

theorem exists_combine (h : e.IsPlain) (hvs : vs.length = e.children.length) :
    ∃ v, combine tables e vs = .ok v := by
  cases e with
  | iovec =>
    obtain ⟨a, b, rfl⟩ := List.length_eq_two.mp hvs
    exact ⟨_, rfl⟩
  | cmsg | pollfd =>
    obtain ⟨a, b, c, rfl⟩ := List.length_eq_three.mp hvs
    exact ⟨_, rfl⟩
  | msghdr | sockExtendedErr =>
    match vs, hvs with
    | [_, _, _, _, _, _], _ => exact ⟨_, rfl⟩
  | epollev events ptr fd u32 u64 =>
    cases ptr <;> cases fd <;> cases u32 <;> cases u64 <;> try exact h.elim
    all_goals
      obtain ⟨a, b, rfl⟩ := List.length_eq_two.mp hvs
      exact ⟨_, rfl⟩
  | word | string | binary => exact h.elim
  | _ => exact ⟨_, rfl⟩

theorem legalNode_word_iff {name : String} :
    LegalNode tables (.word name) ↔ ∃ num, tables.value name = some num := by
  simp [legalNode_iff, Expression.IsUnnamed, Option.ne_none_iff_exists']

theorem legalNode_string_iff {string : String} : LegalNode tables (.string string) ↔
    ∃ out, unescapeCstringExpression string = .ok out := by
  simp [legalNode_iff, Expression.IsUnnamed]

theorem legalNode_binary_iff {op : String} {lhs rhs : Expression} :
    LegalNode tables (.binary op lhs rhs) ↔ (op = "=" ∨ op = "|") ∧ (op = "|" →
      ∃ m n, Denotes tables lhs (.integer m) ∧ Denotes tables rhs (.integer n)) := by
  simp [legalNode_iff, Expression.IsUnnamed]

/-- The values of the children of a node can be combined exactly if the node is legal. -/
theorem combinesIf :
    CombinesIf Expression.children (combine tables) (evaluate tables) (LegalNode tables) := by
  intro e vs hvs
  rw [mapM_eq_ok_iff] at hvs
  obtain hplain | ⟨events, rfl⟩ | ⟨name, rfl⟩ | ⟨string, rfl⟩ | ⟨op, lhs, rhs, rfl⟩ :=
    e.isPlain_or
  · exact iff_of_true (exists_combine hplain hvs.length_eq.symm) hplain.legalNode
  · exact iff_of_false (fun ⟨v, hv⟩ => by cases hv) fun h => h.epollev ⟨events, rfl⟩
  · rw [legalNode_word_iff]
    constructor
    · rintro ⟨v, hv⟩
      obtain ⟨num, hnum, -⟩ := bind_eq_ok_iff.mp hv
      exact ⟨num, symbolToInt_eq_ok_iff.mp hnum⟩
    · rintro ⟨num, hnum⟩
      exact ⟨_, bind_eq_ok_iff.mpr ⟨num, symbolToInt_eq_ok_iff.mpr hnum, rfl⟩⟩
  · rw [legalNode_string_iff]
    constructor
    · rintro ⟨v, hv⟩
      obtain ⟨out, hout, -⟩ := bind_eq_ok_iff.mp hv
      exact ⟨out, hout⟩
    · rintro ⟨out, hout⟩
      exact ⟨_, bind_eq_ok_iff.mpr ⟨out, hout, rfl⟩⟩
  · rcases hvs with _ | ⟨hlhs, _ | ⟨hrhs, _ | _⟩⟩
    have hinteger {e v : Expression} (hv : evaluate tables e = .ok v) (num : Int64) :
        Denotes tables e (.integer num) ↔ v = .integer num := by
      rw [← evaluate_eq_ok_iff, hv, Except.ok.injEq]
    rw [legalNode_binary_iff]
    simp only [hinteger hlhs, hinteger hrhs]
    constructor
    · rintro ⟨v, hv⟩
      obtain ⟨rfl, m, n, rfl, rfl, -⟩ | ⟨rfl, -⟩ := evaluateBinaryExpression_eq_ok_iff.mp hv
      · exact ⟨.inr rfl, fun _ => ⟨m, n, rfl, rfl⟩⟩
      · exact ⟨.inl rfl, fun h => absurd h (by decide)⟩
    · rintro ⟨rfl | rfl, hoperands⟩
      · exact ⟨_, rfl⟩
      · obtain ⟨m, n, rfl, rfl⟩ := hoperands rfl
        exact ⟨_, rfl⟩

theorem symbolToInt_messages {name : String} : symbolToInt tables name ≠ .error none := by
  unfold symbolToInt
  split
  · simp
  · split <;> simp

theorem unescapeCstringExpression_messages {string : String} :
    unescapeCstringExpression string ≠ .error none := by
  unfold unescapeCstringExpression
  split <;> simp

theorem evaluateBinaryExpression_messages {op : String} {lhs rhs : Expression} :
    evaluateBinaryExpression op lhs rhs ≠ .error none := by
  unfold evaluateBinaryExpression
  split
  · split <;> simp
  · split <;> simp

theorem bind_pure_messages {α : Type} {m : Evaluation α} {f : α → Expression} (h : m ≠ .error none)
:
    (m >>= fun a => pure (f a)) ≠ .error none := by
  cases m with
  | ok a => simp [bind, Except.bind, pure, Except.pure]
  | error message => simpa [bind, Except.bind] using h

/-- No message is left exactly where a node names no data member. -/
theorem failsIf :
    FailsIf Expression.children (combine tables) (evaluate tables) none Expression.IsUnnamed := by
  intro e vs hvs
  rw [mapM_eq_ok_iff] at hvs
  obtain hplain | ⟨events, rfl⟩ | ⟨name, rfl⟩ | ⟨string, rfl⟩ | ⟨op, lhs, rhs, rfl⟩ :=
    e.isPlain_or
  · obtain ⟨v, hv⟩ := @exists_combine tables e vs hplain hvs.length_eq.symm
    rw [hv]
    exact iff_of_false (by rintro ⟨⟩) (@hplain.legalNode tables).epollev
  · exact iff_of_true rfl ⟨events, rfl⟩
  · exact iff_of_false (bind_pure_messages symbolToInt_messages) (by rintro ⟨events, h⟩; cases h)
  · exact iff_of_false (bind_pure_messages unescapeCstringExpression_messages)
      (by rintro ⟨events, h⟩; cases h)
  · rcases hvs with _ | ⟨hlhs, _ | ⟨hrhs, _ | _⟩⟩
    exact iff_of_false evaluateBinaryExpression_messages (by rintro ⟨events, h⟩; cases h)

/-- A value is no word, and neither is anything in it. -/
theorem Denotes.everywhere (h : Denotes tables e v) :
    Everywhere Expression.children (¬ ·.IsWord) v := by
  have hinside : ∀ n, Inside Expression.children n v → ∃ d, Denotes tables d n := by
    intro n hn
    induction hn with
    | refl => exact ⟨e, h⟩
    | tail _ hc ih =>
      obtain ⟨d, hd⟩ := ih
      exact hd.of_mem_children hc
  intro n hn
  obtain ⟨d, hd⟩ := hinside n hn
  rintro ⟨string, rfl⟩
  cases hd

end Node

/-! ## Lists -/

section Lists

variable {tables : SymbolTables} {inList : List Expression}

/-- For every list of expressions, `evaluate_expression_list` returns `STATUS_OK` with the values
or an error with a message as it should, exactly if the first node that is not legal, if any, is
not one that names no data member. -/
theorem evaluateExpressionList_right_iff :
    EvaluatedRight tables inList (evaluateExpressionList tables inList) ↔
      ¬ StopsUnnamed tables inList := by
  have hstops : StopsUnnamed tables inList ↔ evaluateList tables inList = .error none := by
    rw [evaluateList_eq_mapM, evaluates.mapM_error_iff combinesIf failsIf]
    rfl
  have hlegal : (∃ out, evaluateList tables inList = .ok out) ↔
      ∀ e ∈ inList, Legal tables e := by
    rw [evaluateList_eq_mapM, evaluates.exists_mapM_ok_iff combinesIf]
    rfl
  unfold evaluateExpressionList
  rw [hstops]
  cases hrun : evaluateList tables inList with
  | ok out =>
    refine iff_of_true ⟨iff_of_true rfl (hlegal.mp ⟨out, hrun⟩), fun _ => ?_, by rintro ⟨⟩⟩
      (by rintro ⟨⟩)
    rw [evaluateList_eq_mapM, mapM_eq_ok_iff] at hrun
    have hdenotes : List.Forall₂ (Denotes tables) inList out :=
      (forall₂_congr_of_mem fun _ _ _ => evaluate_eq_ok_iff).mp hrun
    refine ⟨hdenotes, fun v hv => ?_⟩
    obtain ⟨e, he⟩ := exists_of_mem_forall₂ hdenotes hv
    exact he.everywhere
  | error message =>
    constructor
    · intro h hnone
      exact (h.failure rfl).2 (Except.error.inj hnone)
    · intro hmessage
      refine ⟨iff_of_false (by rintro ⟨⟩) fun hall => ?_, by rintro ⟨⟩, fun _ => ⟨rfl, ?_⟩⟩
      · obtain ⟨out, hout⟩ := hlegal.mpr hall
        cases hrun.symm.trans hout
      · rintro rfl
        exact hmessage rfl

theorem not_evaluateExpressionList_right : ¬ EvaluatedRight ⟨[], []⟩
    [.epollev (.integer 1) none none none none]
    (evaluateExpressionList ⟨[], []⟩ [.epollev (.integer 1) none none none none]) := by
  intro h
  exact (h.failure rfl).2 rfl

end Lists

end QoSMos.Script
