import Simbus.Message
import Simbus.Pci.Client
import Simbus.Pci.Protocol

/-!
# The UNTIL line of a PCI bus

The server writes the signals of a device in the order of their names, every
vector from the highest bit down; a client goes through the tokens and stores the
ones it knows.  What it stores is what the server keeps.
-/

namespace Simbus.Pci

open FourValued

section

variable {User Handle : Type}

/-! ## The server -/

/-- The name of an interrupt line. -/
def interruptName : Fin 4 → String
  | 0 => "INTA#"
  | 1 => "INTB#"
  | 2 => "INTC#"
  | 3 => "INTD#"

/-- The text of some lines. -/
def linesText
    {width : Nat}
    (lines : Fin width → Logic4) : Axi4.Text :=
  vectorText (List.ofFn lines)

/-- The interrupt vectors, which only hosts have. -/
def interruptTokens (send : SendSignals) : Tokens String :=
  match send.intN with
  | none => []
  | some intN =>
      (List.finRange 4).map fun line =>
        (interruptName line, linesText (intN line))

/-- RESET#, which only devices have. -/
def resetTokens (send : SendSignals) : Tokens String :=
  match send.resetN with
  | none => []
  | some resetN => [("RESET#", [resetN])]

/-- The tokens that `bus_ready` writes, in the order of the signal map. -/
def untilTokens (send : SendSignals) : Tokens String :=
  [("ACK64#", [send.bi.ack64N]),
    ("AD", linesText send.bi.ad),
    ("C/BE#", linesText send.bi.cBe),
    ("DEVSEL#", [send.bi.devselN]),
    ("FRAME#", [send.bi.frameN]),
    ("GNT#", [send.gntN]),
    ("IDSEL", [send.idsel])] ++
  interruptTokens send ++
  [("IRDY#", [send.bi.irdyN]),
    ("PAR", [send.bi.par]),
    ("PAR64", [send.bi.par64]),
    ("PCIXCAP", [send.pcixcap]),
    ("PCI_CLK", [send.pciClk]),
    ("REQ64#", [send.bi.req64N])] ++
  resetTokens send ++
  [("STOP#", [send.bi.stopN]),
    ("TRDY#", [send.bi.trdyN])]

/-! ## The client -/

namespace SimbusPci

/-- The loop that stores a vector of some width, after the assertion on it. -/
def takeLines (width : Nat) (text : Axi4.Text) : Option (Fin width → Logic4) :=
  if text.length = width then
    some fun bit => text.getD (width - 1 - bit) .x
  else
    none

/-- The interrupt vector that a token is for. -/
def takeInterrupt
    (pci : SimbusPci User Handle)
    (line : Fin 4)
    (text : Axi4.Text) : Option (SimbusPci User Handle) :=
  (takeLines 16 text).map fun lines =>
    { pci with pciIntN := Function.update pci.pciIntN line lines }

/-- A change of the bidirectional inputs. -/
def see
    (pci : SimbusPci User Handle)
    (change : BiSignals → BiSignals) : SimbusPci User Handle :=
  { pci with seen := change pci.seen }

/-- What `send_ready_command` does with one token of an UNTIL. -/
def takeToken
    (pci : SimbusPci User Handle)
    (token : String × Axi4.Text) : Option (SimbusPci User Handle) :=
  let level := Axi4.decodeBit token.2
  if token.1 = "PCI_CLK" then
    some { pci with pciClk := level }
  else if token.1 = "PCIXCAP" then
    some { pci with pcixcap := level }
  else if token.1 = "GNT#" then
    some { pci with pciGntN := level }
  else if token.1 = "INTA#" then
    pci.takeInterrupt 0 token.2
  else if token.1 = "INTB#" then
    pci.takeInterrupt 1 token.2
  else if token.1 = "INTC#" then
    pci.takeInterrupt 2 token.2
  else if token.1 = "INTD#" then
    pci.takeInterrupt 3 token.2
  else if token.1 = "FRAME#" then
    some (pci.see fun seen => { seen with frameN := level })
  else if token.1 = "REQ64#" then
    some (pci.see fun seen => { seen with req64N := level })
  else if token.1 = "IRDY#" then
    some (pci.see fun seen => { seen with irdyN := level })
  else if token.1 = "TRDY#" then
    some (pci.see fun seen => { seen with trdyN := level })
  else if token.1 = "STOP#" then
    some (pci.see fun seen => { seen with stopN := level })
  else if token.1 = "DEVSEL#" then
    some (pci.see fun seen => { seen with devselN := level })
  else if token.1 = "ACK64#" then
    some (pci.see fun seen => { seen with ack64N := level })
  else if token.1 = "C/BE#" then
    (takeLines 8 token.2).map fun lines =>
      pci.see fun seen => { seen with cBe := lines }
  else if token.1 = "AD" then
    (takeLines 64 token.2).map fun lines =>
      pci.see fun seen => { seen with ad := lines }
  else if token.1 = "PAR" then
    some (pci.see fun seen => { seen with par := level })
  else if token.1 = "PAR64" then
    some (pci.see fun seen => { seen with par64 := level })
  else
    -- Signals not of interest are skipped.
    some pci

/-- All tokens of an UNTIL; an assertion may fail. -/
def takeTokens
    (pci : SimbusPci User Handle) : Tokens String → Option (SimbusPci User Handle)
  | [] => some pci
  | token :: tokens => (pci.takeToken token).bind fun pci => pci.takeTokens tokens

end SimbusPci

/-! ## Both -/

/-- A vector that is written and read again is the same. -/
theorem takeLines_linesText
    {width : Nat}
    (lines : Fin width → Logic4) :
    SimbusPci.takeLines width (linesText lines) = some lines := by
  have length : (linesText lines).length = width := by
    simp [linesText, vectorText]
  rw [SimbusPci.takeLines, if_pos length, Option.some.injEq]
  funext bit
  have bounded : width - 1 - bit < width := by
    have := bit.isLt
    omega
  have place : width - 1 - (width - 1 - bit) = bit := by
    have := bit.isLt
    omega
  simp [linesText, vectorText, List.getD, bounded, place]

theorem takeTokens_append
    (pci : SimbusPci User Handle)
    (first later : Tokens String) :
    pci.takeTokens (first ++ later) =
      (pci.takeTokens first).bind fun pci => pci.takeTokens later := by
  induction first generalizing pci with
  | nil =>
      rfl
  | cons token first inductionHypothesis =>
      rw [List.cons_append, SimbusPci.takeTokens, SimbusPci.takeTokens,
        Option.bind_assoc]
      congr 1
      funext pci
      exact inductionHypothesis pci

theorem takeToken_interrupt
    (pci : SimbusPci User Handle)
    (line : Fin 4)
    (text : Axi4.Text) :
    pci.takeToken (interruptName line, text) = pci.takeInterrupt line text := by
  match line with
  | 0 | 1 | 2 | 3 => simp [SimbusPci.takeToken, interruptName]

/-- The interrupts of a host are the ones that the server sends it. -/
theorem takeTokens_interrupts
    (pci : SimbusPci User Handle)
    (send : SendSignals) :
    pci.takeTokens (interruptTokens send) =
      some { pci with pciIntN := send.intN.getD pci.pciIntN } := by
  rw [interruptTokens]
  cases send.intN with
  | none =>
      rfl
  | some intN =>
      have all : List.finRange 4 = [0, 1, 2, 3] := rfl
      simp only [all, List.map_cons, List.map_nil, SimbusPci.takeTokens,
        takeToken_interrupt, SimbusPci.takeInterrupt, takeLines_linesText,
        Option.map_some, Option.bind_some, Option.getD_some]
      have lines : Function.update (Function.update (Function.update
          (Function.update pci.pciIntN 0 (intN 0)) 1 (intN 1)) 2 (intN 2)) 3
            (intN 3) = intN := by
        funext line
        match line with
        | 0 | 1 | 2 | 3 => simp [Function.update]
      rw [lines]

/-- A device ignores RESET#. -/
theorem takeTokens_reset
    (pci : SimbusPci User Handle)
    (send : SendSignals) :
    pci.takeTokens (resetTokens send) = some pci := by
  rw [resetTokens]
  cases send.resetN with
  | none =>
      rfl
  | some resetN =>
      simp [SimbusPci.takeTokens, SimbusPci.takeToken]

/-- An UNTIL gives a client the signals that the server keeps for it. -/
theorem takeTokens_untilTokens
    (pci : SimbusPci User Handle)
    (send : SendSignals) :
    pci.takeTokens (untilTokens send) = some (pci.sample send) := by
  simp only [untilTokens, takeTokens_append, Option.bind_assoc]
  simp [SimbusPci.takeTokens, takeTokens_interrupts, takeTokens_reset,
    SimbusPci.takeToken, SimbusPci.see, SimbusPci.sample, takeLines_linesText,
    Axi4.decodeBit]

end

end Simbus.Pci
