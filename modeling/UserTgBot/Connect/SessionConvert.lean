import UserTgBot.Library.PyText

/-!
# From GramJS to Telethon

`shared/session_convert.py`: the browser exports a data center and an authorization key, and
the server rebuilds a Telethon session string from them. Packing the string is Telethon's
own `StringSession.save`, which is a parameter here.
-/

namespace UserTgBot.SessionConvert

open PyText

/-- `_DC_IPS`: the production address of each data center. -/
def dcIps : List (Int × String) :=
  [(1, "149.154.175.53"), (2, "149.154.167.51"), (3, "149.154.175.100"),
   (4, "149.154.167.91"), (5, "91.108.56.130")]

def port : Nat := 443

def authKeyBytes : Nat := 256

/-- `gramjs_to_telethon`; every failure is a `ValueError` with this message. -/
def gramjsToTelethon (save : Int → String → Nat → List UInt8 → Text) (dcId : Int)
    (authKey : Text) : Except Text Text :=
  match b64decode authKey with
  | .error reason => .error (text "authKey is not valid base64: " ++ reason)
  | .ok key =>
      if key.length ≠ authKeyBytes then
        let count := key.length
        .error (text s!"authKey must be {authKeyBytes} bytes, got {count}")
      else match dcIps.lookup dcId with
        | none => .error (text s!"unknown dc_id {dcId} (known: [1, 2, 3, 4, 5])")
        | some ip => .ok (save dcId ip port key)

end UserTgBot.SessionConvert
