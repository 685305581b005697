import DspEmbedded.Lib.CString

/-!
# `dsp_wifi.c`, `main.c`: credentials

Where SSID and passphrase come from: the two strings in NVS, `dsp_wifi_init` up to the
configuration of the station, `dsp_wifi_store_credentials`, and the boot that calls them.
What the WiFi stack itself refuses ends in an abort of the boot and is left out.
-/
namespace DspEmbedded.Model.Credentials

open Lib.CString

/-! ## NVS -/

/-- The error codes of NVS that are told apart. -/
inductive NvsErr where
  | ok
  | fail
  | invalidArg
  | noFreePages
  | newVersionFound
  | notFound
  | invalidLength
  deriving DecidableEq, Repr

/-- `NVS_KEY_SSID` and `NVS_KEY_PASS`, as the next boot finds them. -/
structure Nvs where
  ssid : Option CStr
  pass : Option CStr
  deriving DecidableEq

def Nvs.erased : Nvs := ⟨none, none⟩

/-- What the platform answers to a store. A power cut is an error of the call it comes
in. A string that was not committed may still be found later. -/
structure StoreResults where
  opened : NvsErr
  setSsid : NvsErr
  setPass : NvsErr
  commit : NvsErr
  ssidKept : Bool
  passKept : Bool

/-- What it answers to a boot. A partition that could not be erased may have lost either
string. -/
structure BootResults where
  flashInit : NvsErr
  flashErase : NvsErr
  ssidLeft : Bool
  passLeft : Bool
  flashInitAgain : NvsErr
  opened : NvsErr
  getSsid : NvsErr
  getPass : NvsErr

/-- `nvs_get_str` into an array of `cap` bytes. `failure` is an error of the flash. -/
def nvsGetStr {cap : Nat} (stored : Option CStr) (failure : NvsErr) (out : CharBuf cap) :
    NvsErr × CharBuf cap :=
  if failure ≠ .ok then (failure, out)
  else
    match stored with
    | none => (.notFound, out)
    | some s =>
      if cap ≤ s.length then (.invalidLength, out)
      else (.ok, strncpy out s (s.length + 1))

/-- The partition is to be formatted anew. -/
def BootResults.Formats (r : BootResults) : Prop :=
  r.flashInit = .noFreePages ∨ r.flashInit = .newVersionFound

instance (r : BootResults) : Decidable r.Formats := inferInstanceAs (Decidable (_ ∨ _))

def nvsFlashErase (nvs : Nvs) (r : BootResults) : NvsErr × Nvs :=
  if r.flashErase = .ok then (.ok, .erased)
  else
    (r.flashErase,
      ⟨if r.ssidLeft then nvs.ssid else none, if r.passLeft then nvs.pass else none⟩)

/-- `nvs_flash_init`, and a second try on a partition that should have been erased by
then; nobody looks whether it was. -/
def nvsFlashInit (nvs : Nvs) (r : BootResults) : NvsErr × Nvs :=
  if r.Formats then (r.flashInitAgain, (nvsFlashErase nvs r).2) else (r.flashInit, nvs)

/-! ## `dsp_wifi.c` -/

/-- `DSP_WIFI_SSID_MAX_LEN`. -/
def dspWifiSsidMaxLen : Nat := 32

/-- `DSP_WIFI_PASS_MAX_LEN`. -/
def dspWifiPassMaxLen : Nat := 64

/-- `dsp_wifi_config_t`. -/
structure WifiConfig where
  ssid : CharBuf dspWifiSsidMaxLen
  password : CharBuf dspWifiPassMaxLen
  maxRetry : Int
  reconnectDelayMs : UInt32

/-- `wifi_config_t.sta`: the two fields that are set. -/
structure StaConfig where
  ssid : CharBuf 32
  password : CharBuf 64
  deriving DecidableEq

/-- `s_max_retry` and `s_delay_ms`. -/
structure Settings where
  maxRetry : Int
  delayMs : UInt32
  deriving DecidableEq

def nvsLoadCredentials (nvs : Nvs) (r : BootResults) (ssid : CharBuf dspWifiSsidMaxLen)
    (pass : CharBuf dspWifiPassMaxLen) :
    NvsErr × CharBuf dspWifiSsidMaxLen × CharBuf dspWifiPassMaxLen :=
  if r.opened ≠ .ok then (r.opened, ssid, pass)
  else
    let (err, ssid) := nvsGetStr nvs.ssid r.getSsid ssid
    if err ≠ .ok then (err, ssid, pass)
    else
      let (err, pass) := nvsGetStr nvs.pass r.getPass pass
      (err, ssid, pass)

/-- The station's configuration, zeros and two `strncpy` calls. -/
def staConfig (ssid password : CStr) : StaConfig :=
  ⟨strncpy (.zero 32) ssid 31, strncpy (.zero 64) password 63⟩

/-- `dsp_wifi_init`, with what `esp_wifi_set_config` is called with. -/
def dspWifiInit (nvs : Nvs) (settings : Settings) (r : BootResults) (cfg : Option WifiConfig) :
    (NvsErr × Option StaConfig × Settings) × Nvs :=
  let (err, nvs) := nvsFlashInit nvs r
  if err ≠ .ok then ((err, none, settings), nvs)
  else
    match cfg.filter fun cfg => cfg.ssid.bytes.headD 0 ≠ 0 with
    | some cfg =>
      let settings : Settings :=
        ⟨if cfg.maxRetry > 0 then cfg.maxRetry else settings.maxRetry,
          if cfg.reconnectDelayMs > 0 then cfg.reconnectDelayMs else settings.delayMs⟩
      ((.ok, some (staConfig cfg.ssid.str cfg.password.str), settings), nvs)
    | none =>
      let (err, ssid, pass) := nvsLoadCredentials nvs r (.zero _) (.zero _)
      if err ≠ .ok then ((.notFound, none, settings), nvs)
      else ((.ok, some (staConfig ssid.str pass.str), settings), nvs)

/-- `dsp_wifi_store_credentials`. -/
def dspWifiStoreCredentials (nvs : Nvs) (r : StoreResults) (ssid password : Option CStr) :
    NvsErr × Nvs :=
  match ssid.filter fun s => s.bytes.headD 0 ≠ 0 with
  | none => (.invalidArg, nvs)
  | some ssid =>
    match password with
    | none => (.invalidArg, nvs)
    | some password =>
      if r.opened ≠ .ok then (r.opened, nvs)
      else if r.setSsid ≠ .ok then
        (r.setSsid, { nvs with ssid := if r.ssidKept then some ssid else nvs.ssid })
      else if r.setPass ≠ .ok ∨ r.commit ≠ .ok then
        (if r.setPass ≠ .ok then r.setPass else r.commit,
          ⟨if r.ssidKept then some ssid else nvs.ssid,
            if r.passKept then some password else nvs.pass⟩)
      else (.ok, ⟨some ssid, some password⟩)

/-! ## `main.c` -/

/-- `provision_cfg`. -/
def provisionCfg (ssid password : CStr) : WifiConfig :=
  ⟨strncpy (.zero _) ssid 31, strncpy (.zero _) password 63, 0, 0⟩

/-- What a boot of `app_main` comes to: the result of `dsp_wifi_init`, and that of the
store if there was one. -/
structure Boot where
  init : NvsErr
  sta : Option StaConfig
  settings : Settings
  stored : Option NvsErr
  deriving DecidableEq

/-- `app_main` up to the connection. `provision` is `CONFIG_DSP_WIFI_PROVISION_SSID` and
its passphrase, in builds that have them. -/
def appMain (nvs : Nvs) (settings : Settings) (b : BootResults) (r : StoreResults)
    (provision : Option (CStr × CStr)) : Boot × Nvs :=
  match provision with
  | none =>
    let ((err, sta, settings), nvs) := dspWifiInit nvs settings b none
    (⟨err, sta, settings, none⟩, nvs)
  | some (ssid, password) =>
    let ((err, sta, settings), nvs) :=
      dspWifiInit nvs settings b (some (provisionCfg ssid password))
    if err ≠ .ok then (⟨err, sta, settings, none⟩, nvs)
    else
      let (stored, nvs) := dspWifiStoreCredentials nvs r (some ssid) (some password)
      (⟨err, sta, settings, some stored⟩, nvs)

end DspEmbedded.Model.Credentials
