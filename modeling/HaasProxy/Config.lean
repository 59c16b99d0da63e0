import HaasProxy.Lib.CString

/-!
# Configuration (`config.h`, `config.c`)

The options record `tConfig` as `ConfigParse` fills it and the master and the
proxy read it.  Pointer fields are `Option`s, `none` being `NULL`; the integer
fields keep the sentinel `-1` of `ConfigInit`, and `none` is that sentinel for
the forward mode, which is an enumeration otherwise.

The record stands on its own, in front of everything that reads it: the command line
is one of its readers' affairs only as far as it says which values a field can have
when the program starts (`Config.Usable`).
-/

namespace HaasProxy

/-- How port forwarding is handled, in the order of the C enumeration. -/
inductive ForwardMode where
  | deny
  | allow
  | fake
  | null
  | echo
  deriving DecidableEq, Repr

/-- `tConfig`. -/
structure Config where
  wantHelp : Bool
  foreground : Bool
  debugLevel : Int
  idleTimeout : Int
  sessionTimeout : Int
  cpuUsage : Int
  processNice : Int
  connLimit : Int
  trapLog : Option CString
  haasLog : Option CString
  trapPort : Int
  forwardMode : Option ForwardMode
  banner : Option CString
  keysDir : Option CString
  haasAddr : Option CString
  haasPort : Int
  haasToken : Option CString

/-- `ConfigInit`. -/
def configInit : Config where
  wantHelp := false
  foreground := false
  debugLevel := 0
  idleTimeout := -1
  sessionTimeout := -1
  cpuUsage := -1
  processNice := -1
  connLimit := -1
  trapLog := some ⟨ascii "5", by decide⟩
  haasLog := none
  trapPort := -1
  forwardMode := none
  banner := none
  keysDir := none
  haasAddr := none
  haasPort := -1
  haasToken := none

end HaasProxy
