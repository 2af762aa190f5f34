import Simbus.FourValued

/-!
# Signals of a PCI bus

The bidirectional signals are the ones every device may drive.  The server
keeps, for each device, the values the device last reported in READY
(`ClientSignals`) and the values it sends in UNTIL (`SendSignals`).
-/

namespace Simbus.Pci

open FourValued

/-- The signals a device both drives and observes. -/
structure BiSignals where
  frameN : Logic4
  req64N : Logic4
  irdyN : Logic4
  trdyN : Logic4
  stopN : Logic4
  devselN : Logic4
  ack64N : Logic4
  cBe : Fin 8 → Logic4
  ad : Fin 64 → Logic4
  par : Logic4
  par64 : Logic4

/-- One bit of the bidirectional signals. -/
inductive BiBit where
  | frameN
  | req64N
  | irdyN
  | trdyN
  | stopN
  | devselN
  | ack64N
  | cBe (lane : Fin 8)
  | ad (line : Fin 64)
  | par
  | par64
  deriving Repr, DecidableEq

namespace BiSignals

/-- The value of one bit. -/
def get (signals : BiSignals) : BiBit → Logic4
  | .frameN => signals.frameN
  | .req64N => signals.req64N
  | .irdyN => signals.irdyN
  | .trdyN => signals.trdyN
  | .stopN => signals.stopN
  | .devselN => signals.devselN
  | .ack64N => signals.ack64N
  | .cBe lane => signals.cBe lane
  | .ad line => signals.ad line
  | .par => signals.par
  | .par64 => signals.par64

/-- Signals given bit by bit. -/
def ofBits (value : BiBit → Logic4) : BiSignals where
  frameN := value .frameN
  req64N := value .req64N
  irdyN := value .irdyN
  trdyN := value .trdyN
  stopN := value .stopN
  devselN := value .devselN
  ack64N := value .ack64N
  cBe := fun lane => value (.cBe lane)
  ad := fun line => value (.ad line)
  par := value .par
  par64 := value .par64

@[simp] theorem get_ofBits
    (value : BiBit → Logic4)
    (bit : BiBit) :
    (ofBits value).get bit = value bit := by
  cases bit <;> rfl

/-- No bit is driven. -/
def released : BiSignals :=
  ofBits fun _ => .z

@[simp] theorem get_released
    (bit : BiBit) :
    released.get bit = .z := by
  simp [released]

end BiSignals

/--
The values a device last reported.  `none` stands for a signal no READY of the
device has named yet (the server finds an empty vector there).
-/
structure ClientSignals where
  resetN : Option Logic4
  reqN : Option Logic4
  intN : Fin 4 → Option Logic4
  bi : BiSignals

/--
The values the server sends to a device.  RESET# goes to devices only and the
interrupt vectors INTA# .. INTD# go to hosts only.
-/
structure SendSignals where
  pciClk : Logic4
  pcixcap : Logic4
  gntN : Logic4
  idsel : Logic4
  resetN : Option Logic4
  intN : Option (Fin 4 → Fin 16 → Logic4)
  bi : BiSignals

end Simbus.Pci
