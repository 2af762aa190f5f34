import Simbus.Service.LineBuffer

/-!
# A request of a client and its response

`__simbus_server_send_recv` sends a message and takes what one `read` returns for
the response.  The response is cut into tokens inside the buffer, which behind it
still holds older text.
-/

namespace Simbus.Libsimbus

open Service

def space : UInt8 := 32

/-- `strlen`. -/
def strlen (buf : Bytes) : Nat :=
  (buf.takeWhile (· ≠ nul)).length

/-- A byte at which `strcspn(cp, " ")` goes on. -/
def inToken (byte : UInt8) : Bool :=
  byte ≠ space ∧ byte ≠ nul

/-- `cp += strspn(cp, " ")`. -/
def skipSpaces (text : Bytes) : Bytes :=
  text.dropWhile (· = space)

/-- The loop that cuts at most `argc` tokens off. -/
def chop : Nat → Bytes → List Bytes
  | 0, _ => []
  | _ + 1, [] => []
  | argc + 1, byte :: rest =>
      if byte = nul then
        []
      else
        let token := (byte :: rest).takeWhile inToken
        let afterToken := (byte :: rest).dropWhile inToken
        -- `*cp++ = 0` passes a NUL as well as a space.
        token :: chop argc (skipSpaces (afterToken.drop 1))

/-- The text after `*cp = 0` at its first newline. -/
def cutNewline (text : Bytes) : Option Bytes :=
  (splitLine text).map fun split => split.1 ++ nul :: split.2

/-- `argv[cur_argc] = 0`, which needs room in the array. -/
def endArgv (maxArgc : Nat) (argv : List Bytes) : Option (List Bytes) :=
  if argv.length < maxArgc then some argv else none

/--
`__simbus_server_send_recv`, for the results of its `write` and its `read`.  It
returns no tokens after an error or at the end of the connection, and nothing if an
assertion fails.
-/
def simbusServerSendRecv
    (maxArgc : Nat)
    (buf : Bytes)
    (written : Int)
    (arrived : Option Bytes) : Option (List Bytes) :=
  if written < 0 then
    some []
  else if written ≠ strlen buf then
    none
  else
    match arrived with
    | none => none
    | some [] => some []
    | some bytes =>
        let received := bytes ++ nul :: buf.drop (bytes.length + 1)
        (cutNewline received).bind fun text =>
          endArgv maxArgc (chop maxArgc (skipSpaces text))

/-! ## Tokens -/

/-- The tokens of a line. -/
inductive HasTokens : Bytes → List Bytes → Prop where
  | nil :
      HasTokens [] []
  | blank
      {line : Bytes}
      {tokens : List Bytes}
      (rest : HasTokens line tokens) :
      HasTokens (space :: line) tokens
  | last
      {token : Bytes}
      (some : token ≠ [])
      (whole : space ∉ token) :
      HasTokens token [token]
  | token
      {token line : Bytes}
      {tokens : List Bytes}
      (some : token ≠ [])
      (whole : space ∉ token)
      (rest : HasTokens line tokens) :
      HasTokens (token ++ space :: line) (token :: tokens)

/-- A token goes up to the byte that ends it. -/
theorem chop_token
    {token rest : Bytes}
    {stop : UInt8}
    (argc : Nat)
    (some : token ≠ [])
    (whole : space ∉ token)
    (noNul : nul ∉ token)
    (stops : inToken stop = false) :
    skipSpaces (token ++ stop :: rest) = token ++ stop :: rest ∧
      chop (argc + 1) (token ++ stop :: rest) =
        token :: chop argc (skipSpaces rest) := by
  have inside : ∀ byte ∈ token, inToken byte = true := by
    intro byte member
    refine decide_eq_true ⟨?_, ?_⟩
    · rintro rfl
      exact whole member
    · rintro rfl
      exact noNul member
  have taken : (token ++ stop :: rest).takeWhile inToken = token := by
    rw [List.takeWhile_append_of_pos inside, List.takeWhile_cons_of_neg
      (by simp [stops]), List.append_nil]
  have dropped : (token ++ stop :: rest).dropWhile inToken = stop :: rest := by
    rw [List.dropWhile_append_of_pos inside, List.dropWhile_cons_of_neg
      (by simp [stops])]
  cases token with
  | nil =>
      exact (some rfl).elim
  | cons byte token =>
      have first := of_decide_eq_true (inside byte List.mem_cons_self)
      rw [List.cons_append] at taken dropped ⊢
      constructor
      · exact List.dropWhile_cons_of_neg (by simp [first.1])
      · rw [chop, if_neg first.2, taken, dropped]
        rfl

/-- The tokens of a line that ends with a NUL before another NUL. -/
theorem chop_hasTokens
    {line rest : Bytes}
    {tokens : List Bytes}
    (hasTokens : HasTokens line tokens)
    (noNul : nul ∉ line)
    (argc : Nat) :
    chop argc (skipSpaces (line ++ nul :: nul :: rest)) = tokens.take argc := by
  have stop : skipSpaces (nul :: rest) = nul :: rest :=
    List.dropWhile_cons_of_neg (by decide)
  have ended (argc : Nat) (rest : Bytes) : chop argc (nul :: rest) = [] := by
    cases argc <;> rfl
  induction hasTokens generalizing argc with
  | nil =>
      rw [List.take_nil]
      exact ended argc (nul :: rest)
  | @blank line tokens _ inductionHypothesis =>
      rw [List.mem_cons, not_or] at noNul
      exact inductionHypothesis noNul.2 argc
  | @last token some whole =>
      obtain ⟨starts, cut⟩ :=
        @chop_token token (nul :: rest) nul (argc - 1) some whole noNul rfl
      rw [starts]
      cases argc with
      | zero =>
          rfl
      | succ argc =>
          rw [Nat.add_sub_cancel] at cut
          rw [cut, stop, ended, List.take_succ_cons, List.take_nil]
  | @token token line tokens some whole _ inductionHypothesis =>
      rw [List.mem_append, List.mem_cons, not_or, not_or] at noNul
      obtain ⟨starts, cut⟩ :=
        @chop_token token (line ++ nul :: nul :: rest) space (argc - 1) some
          whole noNul.1 rfl
      rw [List.append_assoc, List.cons_append, starts]
      cases argc with
      | zero =>
          rfl
      | succ argc =>
          rw [Nat.add_sub_cancel] at cut
          rw [cut, inductionHypothesis noNul.2.2, List.take_succ_cons]

/-! ## Responses -/

variable {buf line after : Bytes}
variable {tokens : List Bytes}
variable {maxArgc : Nat}

/-- A response that arrives alone and as a whole. -/
theorem sendRecv_whole
    (noNewline : newline ∉ line)
    (noNul : nul ∉ line)
    (hasTokens : HasTokens line tokens) :
    simbusServerSendRecv maxArgc buf (strlen buf) (some (line ++ [newline])) =
      endArgv maxArgc (tokens.take maxArgc) := by
  have cut (rest : Bytes) : cutNewline (line ++ [newline] ++ nul :: rest) =
      some (line ++ nul :: nul :: rest) := by
    have split : splitLine (line ++ newline :: nul :: rest) =
        some (line, nul :: rest) :=
      splitLine_eq_some_iff.mpr ⟨rfl, noNewline, noNul⟩
    rw [List.append_assoc]
    exact congrArg (Option.map _) split
  have positive : ¬ ((strlen buf : Int) < 0) := by omega
  obtain ⟨byte, bytes, isBytes⟩ :=
    List.exists_cons_of_ne_nil (List.append_ne_nil_of_right_ne_nil line
      (List.cons_ne_nil newline []))
  rw [isBytes] at cut ⊢
  unfold simbusServerSendRecv
  rw [if_neg positive, if_neg (not_not.mpr rfl)]
  change (cutNewline _).bind _ = _
  rw [cut, Option.bind_some, chop_hasTokens hasTokens noNul]

/--
The tokens of a response are returned, and what follows it is left for later calls,
if and only if the `read` returns the response and nothing else.
-/
theorem sendRecv_iff
    {count : Nat}
    (noNewline : newline ∉ line)
    (noNul : nul ∉ line)
    (hasTokens : HasTokens line tokens)
    (bounded : count ≤ (line ++ newline :: after).length) :
    simbusServerSendRecv maxArgc buf (strlen buf)
          (some ((line ++ newline :: after).take count)) = some tokens ∧
        (line ++ newline :: after).drop count = after ↔
      count = line.length + 1 ∧ tokens.length < maxArgc := by
  have whole : (line ++ newline :: after).take (line.length + 1) =
      line ++ [newline] := by
    rw [List.take_length_add_append]
    rfl
  have rest : (line ++ newline :: after).drop (line.length + 1) = after := by
    rw [List.drop_length_add_append]
    rfl
  constructor
  · rintro ⟨returned, left⟩
    have lengths := congrArg List.length left
    rw [List.length_drop, List.length_append, List.length_cons] at lengths
    rw [List.length_append, List.length_cons] at bounded
    obtain rfl : count = line.length + 1 := by omega
    rw [whole, sendRecv_whole noNewline noNul hasTokens, endArgv] at returned
    refine ⟨rfl, ?_⟩
    split at returned
    · rename_i fits
      rw [Option.some.injEq] at returned
      rw [returned] at fits
      exact fits
    · cases returned
  · rintro ⟨rfl, fits⟩
    rw [whole, rest, sendRecv_whole noNewline noNul hasTokens,
      List.take_of_length_le (Nat.le_of_lt fits), endArgv, if_pos fits]
    exact ⟨rfl, rfl⟩

/-- A response "A b". -/
def shortResponse : Bytes := [65, 32, 98]

theorem shortResponse_tokens : HasTokens shortResponse [[65], [98]] :=
  @HasTokens.token [65] [98] [[98]] (by decide) (by decide)
    (.last (by decide) (by decide))

/-- It arrives with its newline in one read, before another line. -/
theorem sendRecv_shortResponse :
    simbusServerSendRecv 2048 [] (strlen [])
          (some ((shortResponse ++ newline :: [67, newline]).take 4)) =
        some [[65], [98]] ∧
      (shortResponse ++ newline :: [67, newline]).drop 4 = [67, newline] :=
  (sendRecv_iff (by decide) (by decide) shortResponse_tokens (by decide)).mpr
    ⟨rfl, by decide⟩

/-- It arrives together with the next line, which is lost. -/
theorem sendRecv_twoLines :
    ¬ (simbusServerSendRecv 2048 [] (strlen [])
          (some ((shortResponse ++ newline :: [67, newline]).take 6)) =
        some [[65], [98]] ∧
      (shortResponse ++ newline :: [67, newline]).drop 6 = [67, newline]) := by
  rintro ⟨_, left⟩
  exact absurd left (by decide)

end Simbus.Libsimbus
