import TgWsProxy.Core.Bytes
import TgWsProxy.Core.Dict
import TgWsProxy.Core.Text

/-!
# From the settings form to the proxy

`validate_settings` of `ui/settings.py` turns the strings of the form into a configuration,
`apply_proxy_config` of `utils/tray_common.py` installs it, and `set_sock_opts` of
`proxy/raw_websocket.py` uses what it installed.

* `parseDcIpList`, `coerceDomainList`, `validateSettings`, `applyProxyConfig`, `fromHex`,
  `setSockOpts` — the code.
* `Accepted`, `accepted_of_validateSettings` — what an accepted form went through.
* `entry_mem_of_parseDcIpListFrom` — a complaint about the data centres names one of the entries.
* `fromHex_of_hexDigits`, `setSockOpts_ok_iff` — what the runtime makes of the values.
* `wholeSetting_lt_iff` — which texts stay below a bound once read, rounded and truncated.
* **`accepted_settings_runnable_iff`** — accepted settings run exactly if the text for the buffer
  size is not `TooLarge`: a number that rounds to `2 ^ 21` or more and is still a finite double.
-/

namespace TgWsProxy.Settings

open Wire

/-! ## The code -/

/-- What `inet_aton` raises. -/
inductive SocketError
  | os
  | value

/-- What the code asks the platform. -/
structure Platform where
  /-- the value of a decimal digit beyond ASCII -/
  decimal : Char → Option (Fin 10)
  /-- `str.lower` -/
  lower : List Char → List Char
  /-- `socket.inet_aton`, of which only the exceptions matter -/
  inetAton : List Char → Except SocketError Unit
  /-- whether `socket.inet_pton(AF_INET, ...)` succeeds -/
  inetPton : List Char → Bool

variable (os : Platform)

/-- The two kinds of bad entries. -/
inductive DcIpErrorKind
  | format
  | invalid
  deriving DecidableEq

/-- The `ValueError` of `parse_dc_ip_list`. -/
structure DcIpError where
  entry : List Char
  kind : DcIpErrorKind
  deriving DecidableEq

/-- One entry of `parse_dc_ip_list`: the data centre and its address. -/
def parseDcIp (entry : List Char) : Except DcIpError (ℤ × List Char) :=
  if ':' ∉ entry then .error ⟨entry, .format⟩
  else
    let dcS := entry.takeWhile (· ≠ ':')
    let ipS := (entry.dropWhile (· ≠ ':')).drop 1
    match integer os.decimal dcS with
    | none => .error ⟨entry, .invalid⟩
    | some dcN => if os.inetPton ipS then .ok (dcN, ipS) else .error ⟨entry, .invalid⟩

/-- `parse_dc_ip_list(dc_ip_list)`, with `dc_redirects` as it is so far. -/
def parseDcIpListFrom (dcRedirects : Dict ℤ (List Char)) :
    List (List Char) → Except DcIpError (Dict ℤ (List Char))
  | [] => .ok dcRedirects
  | entry :: rest =>
      match parseDcIp os entry with
      | .error err => .error err
      | .ok (dcN, ipS) => parseDcIpListFrom (dcRedirects.set dcN ipS) rest

/-- `parse_dc_ip_list(dc_ip_list)`. -/
def parseDcIpList (dcIpList : List (List Char)) : Except DcIpError (Dict ℤ (List Char)) :=
  parseDcIpListFrom os Dict.empty dcIpList

/-- A domain setting: one text, or the list it was coerced to. -/
inductive DomainSetting
  | text (s : List Char)
  | entries (l : List (List Char))
  deriving DecidableEq

/-- `value.replace(',', ' ').replace(';', ' ').split()`. -/
def splitDomains (s : List Char) : List (List Char) :=
  words (s.map fun c => if c = ',' ∨ c = ';' then ' ' else c)

/-- The loop of `coerce_domain_list` over the items. -/
def firstOfEach (seen : List (List Char)) : List (List Char) → List (List Char)
  | [] => []
  | item :: rest =>
      let item := strip item
      if item = [] then firstOfEach seen rest
      else
        let key := os.lower item
        if key ∈ seen then firstOfEach seen rest
        else item :: firstOfEach (key :: seen) rest

/-- `coerce_domain_list(value)`. -/
def coerceDomainList : DomainSetting → List (List Char)
  | .text s => firstOfEach os [] (splitDomains s)
  | .entries l => firstOfEach os [] (l.flatMap splitDomains)

/-- The keys of a configuration that the code below reads or writes; a key may be missing. -/
structure Config where
  host : Option (List Char) := none
  port : Option ℤ := none
  secret : Option (List Char) := none
  dcIp : Option (List (List Char)) := none
  bufKb : Option ℤ := none
  poolSize : Option ℤ := none
  logMaxMb : Option ℚ := none
  cfproxy : Option Bool := none
  h2 : Option Bool := none
  cfproxyUserDomain : Option DomainSetting := none
  cfproxyUserDomainEnabled : Option Bool := none
  cfproxyWorkerDomain : Option DomainSetting := none
  cfproxyWorkerEnabled : Option Bool := none
  forceTestDc : Option Bool := none
  noSecure : Option Bool := none

/-- `DEFAULT_CONFIG`; the secret is drawn once per run. -/
structure Defaults where
  host : List Char
  port : ℤ
  secret : List Char
  dcIp : List (List Char)
  bufKb : ℤ
  poolSize : ℤ
  logMaxMb : ℚ
  cfproxy : Bool
  h2 : Bool
  cfproxyUserDomain : DomainSetting
  cfproxyWorkerDomain : DomainSetting
  forceTestDc : Bool
  noSecure : Bool

/-- `default_tray_config()`. -/
def defaultTrayConfig (secret : List Char) : Defaults where
  host := "127.0.0.1".toList
  port := 1443
  secret := secret
  dcIp := ["2:149.154.167.220".toList, "4:149.154.167.220".toList]
  bufKb := 256
  poolSize := 4
  logMaxMb := 5
  cfproxy := true
  h2 := true
  cfproxyUserDomain := .entries []
  cfproxyWorkerDomain := .entries []
  forceTestDc := false
  noSecure := false

/-- The values of the form: strings, and the switches it may lack. -/
structure Form where
  host : List Char
  port : List Char
  dcIp : List Char
  secret : List Char
  bufKb : List Char
  poolSize : List Char
  logMaxMb : List Char
  cfproxyUserDomain : Option (List Char)
  cfproxyWorkerDomain : Option (List Char)
  cfproxy : Option Bool
  h2 : Option Bool
  cfproxyUserDomainEnabled : Option Bool
  cfproxyWorkerEnabled : Option Bool
  noSecure : Option Bool

/-- What the form says in a complaint: `t(key)` or `t(key, entry=entry)`. -/
structure Complaint where
  key : String
  entry : Option (List Char) := none
  deriving DecidableEq

/-- How `validate_settings` ends. -/
inductive Validated
  | accepted (config : Config)
  | rejected (complaint : Complaint)
  | raised

/-- `float(text.strip())`, if it is finite. -/
def finiteNumber (text : List Char) : Option ℚ :=
  match float os.decimal (strip text) with
  | some (.finite q) => some q
  | _ => none

/-- A whole number of the form; the default for anything that is not a finite number. -/
def wholeSetting (text : List Char) (default : ℤ) : ℤ :=
  ((finiteNumber os text).map trunc).getD default

/-- `int(text.strip())` within the range of ports. -/
def portNumber (text : List Char) : Option ℤ :=
  match integer os.decimal (strip text) with
  | some port => if 1 ≤ port ∧ port ≤ 65535 then some port else none
  | none => none

/-- `validate_settings(values, defaults)`. -/
def validateSettings (values : Form) (defaults : Defaults) : Validated :=
  let host := strip values.host
  match os.inetAton host with
  | .error .value => .raised
  | .error .os => .rejected { key := "validation.bad_host" }
  | .ok () =>
    match portNumber os values.port with
    | none => .rejected { key := "validation.bad_port" }
    | some port =>
      let lines := ((splitlines values.dcIp).map strip).filter (· ≠ [])
      match parseDcIpList os lines with
      | .error ⟨entry, .format⟩ =>
          .rejected { key := "validation.dc_format", entry := some entry }
      | .error ⟨entry, .invalid⟩ =>
          .rejected { key := "validation.dc_invalid", entry := some entry }
      | .ok _ =>
        let secret := strip values.secret
        if secret.length ≠ 32 then .rejected { key := "validation.bad_secret_len" }
        else if secret.any (!isHexDigit ·) then .rejected { key := "validation.bad_secret_hex" }
        else
          .accepted
            { host := some host, port := some port, secret := some secret, dcIp := some lines
              bufKb := some (wholeSetting os values.bufKb defaults.bufKb)
              poolSize := some (wholeSetting os values.poolSize defaults.poolSize)
              logMaxMb := some ((finiteNumber os values.logMaxMb).getD defaults.logMaxMb)
              cfproxyUserDomain :=
                values.cfproxyUserDomain.map fun s => .entries (coerceDomainList os (.text s))
              cfproxyWorkerDomain :=
                values.cfproxyWorkerDomain.map fun s => .entries (coerceDomainList os (.text s))
              cfproxy := values.cfproxy, h2 := values.h2
              cfproxyUserDomainEnabled := values.cfproxyUserDomainEnabled
              cfproxyWorkerEnabled := values.cfproxyWorkerEnabled
              noSecure := values.noSecure }

/-- The fields of `proxy_config` that `apply_proxy_config` sets. -/
structure ProxyConfig where
  port : ℤ
  host : List Char
  secret : List Char
  dcRedirects : Dict ℤ (List Char)
  bufferSize : ℤ
  poolSize : ℤ
  fallbackCfproxy : Bool
  cfproxyH2Media : Bool
  cfproxyUserDomains : List (List Char)
  cfproxyWorkerDomains : List (List Char)
  forceTestDc : Bool
  disableSecure : Bool

/-- `apply_proxy_config(cfg)`: what it returns, and `proxy_config` afterwards. -/
def applyProxyConfig (defaults : Defaults) (cfg : Config) (pc : ProxyConfig) : Bool × ProxyConfig :=
  match parseDcIpList os (cfg.dcIp.getD defaults.dcIp) with
  | .error _ => (false, pc)
  | .ok dcRedirects =>
      let userDomains :=
        coerceDomainList os (cfg.cfproxyUserDomain.getD defaults.cfproxyUserDomain)
      let workerDomains :=
        coerceDomainList os (cfg.cfproxyWorkerDomain.getD defaults.cfproxyWorkerDomain)
      (true,
        { port := cfg.port.getD defaults.port
          host := cfg.host.getD defaults.host
          secret := cfg.secret.getD defaults.secret
          dcRedirects := dcRedirects
          bufferSize := max 4 (cfg.bufKb.getD defaults.bufKb) * 1024
          poolSize := max 0 (cfg.poolSize.getD defaults.poolSize)
          fallbackCfproxy := cfg.cfproxy.getD defaults.cfproxy
          cfproxyH2Media := cfg.h2.getD defaults.h2
          cfproxyUserDomains :=
            if cfg.cfproxyUserDomainEnabled.getD (userDomains ≠ []) then userDomains else []
          cfproxyWorkerDomains :=
            if cfg.cfproxyWorkerEnabled.getD (workerDomains ≠ []) then workerDomains else []
          forceTestDc := cfg.forceTestDc.getD defaults.forceTestDc
          disableSecure := cfg.noSecure.getD defaults.noSecure })

/-- The value of a hexadecimal digit. -/
def hexValue (c : Char) : Option ℕ :=
  if c.isDigit then some (c.toNat - '0'.toNat)
  else if 'a' ≤ c ∧ c ≤ 'f' then some (c.toNat - 'a'.toNat + 10)
  else if 'A' ≤ c ∧ c ≤ 'F' then some (c.toNat - 'A'.toNat + 10)
  else none

/-- `bytes.fromhex(s)`: white space may stand between the bytes. -/
def fromHex : List Char → Option Bytes
  | [] => some []
  | [c] => if isAsciiSpace c then some [] else none
  | c :: d :: s =>
      if isAsciiSpace c then fromHex (d :: s)
      else
        match hexValue c, hexValue d with
        | some hi, some lo => (fromHex s).map (UInt8.ofNat (16 * hi + lo) :: ·)
        | _, _ => none

/-- What `setsockopt` raises: a `TypeError` for an integer that does not fit, or an `OSError`. -/
inductive SockOptError
  | type
  | os
  deriving DecidableEq

/-- `sock.setsockopt(level, option, value)`: the value has to fit a C `int`, then the kernel takes
it or not. -/
def setsockopt (taken : Bool) (value : ℤ) : Except SockOptError Unit :=
  if value < -2 ^ 31 ∨ 2 ^ 31 ≤ value then .error .type
  else if taken then .ok () else .error .os

/-- A socket: whether the kernel takes the three options. -/
structure Socket where
  tcpNodelay : Bool
  rcvBuf : Bool
  sndBuf : Bool

/-- `try: ... except OSError: pass`. -/
def exceptOs : Except SockOptError Unit → Except SockOptError Unit
  | .error .os => .ok ()
  | r => r

/-- `set_sock_opts(transport, buffer_size)`; the transport may have no socket. -/
def setSockOpts (sock : Option Socket) (bufferSize : ℤ) : Except SockOptError Unit :=
  match sock with
  | none => .ok ()
  | some sock => do
      exceptOs (setsockopt sock.tcpNodelay 1)
      exceptOs do
        setsockopt sock.rcvBuf bufferSize
        setsockopt sock.sndBuf bufferSize

/-! ## What an accepted form went through -/

/-- The facts about an accepted form that its use rests on. -/
structure Accepted (values : Form) (defaults : Defaults) (config : Config) : Prop where
  port : ∃ port, config.port = some port ∧ 1 ≤ port ∧ port ≤ 65535
  dcIp : ∃ lines dcRedirects, config.dcIp = some lines ∧ parseDcIpList os lines = .ok dcRedirects
  secret : ∃ secret, config.secret = some secret ∧ secret.length = 32 ∧
    ∀ c ∈ secret, isHexDigit c = true
  bufKb : config.bufKb = some (wholeSetting os values.bufKb defaults.bufKb)

variable {os}

lemma entry_of_parseDcIp {entry : List Char} {err : DcIpError}
    (h : parseDcIp os entry = .error err) : err.entry = entry := by
  simp only [parseDcIp] at h
  split at h
  · cases h
    rfl
  · split at h
    · cases h
      rfl
    · split at h <;> cases h
      rfl

/-- A complaint about the data centres names one of the entries. -/
lemma entry_mem_of_parseDcIpListFrom {l : List (List Char)} {err : DcIpError} :
    ∀ {dcRedirects : Dict ℤ (List Char)}, parseDcIpListFrom os dcRedirects l = .error err →
      err.entry ∈ l := by
  induction l with
  | nil =>
      intro dcRedirects h
      cases h
  | cons entry rest ih =>
      intro dcRedirects h
      rw [parseDcIpListFrom] at h
      split at h
      · rename_i hentry
        cases h
        exact List.mem_cons.mpr (Or.inl (entry_of_parseDcIp hentry))
      · exact List.mem_cons_of_mem _ (ih h)

lemma portNumber_range {text : List Char} {port : ℤ} (h : portNumber os text = some port) :
    1 ≤ port ∧ port ≤ 65535 := by
  rw [portNumber] at h
  split at h
  · split_ifs at h with hrange
    exact Option.some.inj h ▸ hrange
  · cases h

theorem accepted_of_validateSettings {values : Form} {defaults : Defaults} {config : Config}
    (h : validateSettings os values defaults = .accepted config) :
    Accepted os values defaults config := by
  rw [validateSettings] at h
  split at h <;> try cases h
  split at h
  · cases h
  · rename_i port hport
    dsimp only at h
    split at h <;> try cases h
    rename_i dcRedirects hdc
    split_ifs at h with hlen hhex
    cases h
    refine ⟨⟨port, rfl, portNumber_range hport⟩, ⟨_, _, rfl, hdc⟩, ⟨_, rfl, ?_, ?_⟩, rfl⟩
    · exact not_not.mp hlen
    · intro c hc
      by_contra hno
      exact hhex (List.any_eq_true.mpr ⟨c, hc, by simpa using hno⟩)

/-! ## What the runtime makes of the values -/

/-- A hexadecimal digit is not white space, and it has a value. -/
lemma hexValue_of_isHexDigit {c : Char} (h : isHexDigit c = true) :
    isAsciiSpace c = false ∧ ∃ n, hexValue c = some n := by
  simp only [isHexDigit, Bool.or_eq_true, Bool.and_eq_true, decide_eq_true_eq] at h
  constructor
  · by_contra hspace
    have hlow : c.toNat ≤ 32 := by
      simp only [Bool.not_eq_false, isAsciiSpace, Bool.or_eq_true, Bool.and_eq_true,
        decide_eq_true_eq] at hspace
      rcases hspace with ⟨-, hle⟩ | rfl
      · omega
      · decide
    have hhigh : 48 ≤ c.toNat := by
      rcases h with (hd | ⟨ha, -⟩) | ⟨ha, -⟩
      · simp only [Char.isDigit, Bool.and_eq_true, decide_eq_true_eq] at hd
        exact UInt32.le_iff_toNat_le.mp hd.1
      · have h97 : 97 ≤ c.toNat := UInt32.le_iff_toNat_le.mp ha
        omega
      · have h65 : 65 ≤ c.toNat := UInt32.le_iff_toNat_le.mp ha
        omega
    omega
  · rw [hexValue]
    split_ifs with hd hlower hupper
    · exact ⟨_, rfl⟩
    · exact ⟨_, rfl⟩
    · exact ⟨_, rfl⟩
    · exact absurd h (by simp [hd, hlower, hupper])

/-- `2 * n` hexadecimal digits are `n` bytes. -/
lemma fromHex_of_hexDigits : ∀ {n : ℕ} {s : List Char}, s.length = 2 * n →
    (∀ c ∈ s, isHexDigit c = true) → ∃ key, fromHex s = some key ∧ key.length = n := by
  intro n
  induction n with
  | zero =>
      intro s hlen _
      obtain rfl := List.length_eq_zero_iff.mp hlen
      exact ⟨[], rfl, rfl⟩
  | succ n ih =>
      intro s hlen hhex
      match s, hlen with
      | c :: d :: s, hlen =>
        have hs : s.length = 2 * n := by
          simp only [List.length_cons] at hlen
          omega
        obtain ⟨key, hkey, hn⟩ := ih hs fun x hx => hhex x (by simp [hx])
        obtain ⟨hspace, hi, hhi⟩ := hexValue_of_isHexDigit (hhex c (by simp))
        obtain ⟨-, lo, hlo⟩ := hexValue_of_isHexDigit (hhex d (by simp))
        refine ⟨UInt8.ofNat (16 * hi + lo) :: key, ?_, by rw [List.length_cons, hn]⟩
        rw [fromHex, if_neg (by simp [hspace]), hhi, hlo]
        simp [hkey]

lemma setsockopt_out_of_range {taken : Bool} (value : ℤ) (h : value < -2 ^ 31 ∨ 2 ^ 31 ≤ value) :
    setsockopt taken value = .error .type := if_pos h

lemma setsockopt_fits {taken : Bool} (value : ℤ) (hlow : -2 ^ 31 ≤ value) (hhigh : value < 2 ^ 31) :
    setsockopt taken value = if taken then .ok () else .error .os :=
  if_neg (by omega)

/-- Setting the options raises exactly when the buffer size does not fit a C `int`. -/
lemma setSockOpts_ok_iff {bufferSize : ℤ} :
    (∀ sock, setSockOpts sock bufferSize = .ok ()) ↔
      -2 ^ 31 ≤ bufferSize ∧ bufferSize < 2 ^ 31 := by
  constructor
  · intro h
    by_contra hout
    have hraise := h (some ⟨true, true, true⟩)
    rw [setSockOpts, setsockopt_out_of_range bufferSize (by omega)] at hraise
    cases hraise
  · rintro ⟨hlow, hhigh⟩ sock
    cases sock with
    | none => rfl
    | some sock =>
        simp only [setSockOpts, setsockopt_fits bufferSize hlow hhigh,
          setsockopt_fits 1 (by norm_num) (by norm_num)]
        rcases sock with ⟨_ | _, _ | _, _ | _⟩ <;> rfl

/-! ## Numbers of the form -/

variable (os) in
/-- The text spells a number that is still a finite double and, rounded, at least `2 ^ 21`. -/
def TooLarge (text : List Char) : Prop :=
  ∃ q : ℚ, spelled os.decimal (strip text) = some (.number q) ∧
    2097152 - 2 ^ (-33 : ℤ) ≤ q ∧ q < 2 ^ 1024 - 2 ^ 970

lemma finiteNumber_eq_some_iff {text : List Char} {r : ℚ} :
    finiteNumber os text = some r ↔
      ∃ q, spelled os.decimal (strip text) = some (.number q) ∧ binary64 q = some r := by
  rw [← float_eq_finite_iff, finiteNumber]
  split <;> simp_all

/-- Rounding and truncation reach `2097152` exactly on the numbers that are too large. -/
lemma wholeSetting_lt_iff {text : List Char} {default : ℤ} (hdefault : default < 2097152) :
    wholeSetting os text default < 2097152 ↔ ¬ TooLarge os text := by
  have hstep : ∀ q : ℚ, 2097152 ≤ rounded q ↔ 2097152 - 2 ^ (-33 : ℤ) ≤ q := by
    intro q
    have h := two_pow_le_rounded_iff q (k := 20) (by norm_num)
    norm_num at h ⊢
    exact h
  cases hread : finiteNumber os text with
  | none =>
      have hnone : ¬ TooLarge os text := by
        rintro ⟨q, hq, hlow, hhigh⟩
        have hpos : (0 : ℚ) ≤ q := le_trans (by norm_num) hlow
        have hsome := finiteNumber_eq_some_iff.mpr ⟨q, hq, binary64_eq_some hpos hhigh⟩
        rw [hread] at hsome
        cases hsome
      simp only [wholeSetting, hread, Option.map_none, Option.getD_none, hdefault, hnone,
        not_false_eq_true]
  | some r =>
      obtain ⟨q, hq, hr⟩ := finiteNumber_eq_some_iff.mp hread
      have hsize : q < 2 ^ 1024 - 2 ^ 970 := by
        by_contra hno
        rw [binary64_eq_none_of_le (not_lt.mp hno)] at hr
        cases hr
      obtain rfl := eq_rounded_of_binary64 hr
      have hlarge : TooLarge os text ↔ 2097152 ≤ rounded q := by
        rw [hstep]
        constructor
        · rintro ⟨q', hq', hlow, -⟩
          rw [hq] at hq'
          cases hq'
          exact hlow
        · intro hlow
          exact ⟨q, hq, hlow, hsize⟩
      rw [hlarge, not_le, wholeSetting, hread, Option.map_some, Option.getD_some]
      exact_mod_cast trunc_lt_iff (n := 2097152) (by norm_num)

/-! ## Accepted settings -/

/-- What the runtime asks of the installed values. -/
structure Runnable (pc : ProxyConfig) : Prop where
  secret : ∃ key, fromHex pc.secret = some key ∧ key.length = 16
  port : 1 ≤ pc.port ∧ pc.port ≤ 65535
  poolSize : 0 ≤ pc.poolSize
  bufferSize : 4096 ≤ pc.bufferSize ∧ pc.bufferSize ≤ 2 ^ 31 - 1
  sockOpts : ∀ sock, setSockOpts sock pc.bufferSize = .ok ()

/-- What `apply_proxy_config` makes of an accepted form: everything but the upper end of the buffer
size is as the runtime needs it. -/
lemma Accepted.apply {values : Form} {defaults : Defaults} {config : Config} (pc : ProxyConfig)
    (h : Accepted os values defaults config) :
    (applyProxyConfig os defaults config pc).1 = true ∧
      (Runnable (applyProxyConfig os defaults config pc).2 ↔
        wholeSetting os values.bufKb defaults.bufKb < 2097152) := by
  obtain ⟨port, hport, hrange⟩ := h.port
  obtain ⟨lines, dcRedirects, hlines, hdc⟩ := h.dcIp
  obtain ⟨secret, hsecret, hlen, hhex⟩ := h.secret
  obtain ⟨key, hkey, hbytes⟩ := fromHex_of_hexDigits (n := 16) hlen hhex
  simp only [applyProxyConfig, hlines, hport, hsecret, h.bufKb, hdc, Option.getD_some, true_and]
  constructor
  · intro hrun
    have hupper := hrun.bufferSize.2
    dsimp only at hupper
    omega
  · intro hlt
    refine ⟨⟨key, hkey, hbytes⟩, hrange, le_max_left _ _, ?_, ?_⟩
    · dsimp only
      omega
    · rw [setSockOpts_ok_iff]
      dsimp only
      omega

/-- **Which accepted settings run.** `apply_proxy_config` takes everything `validate_settings`
accepts; what it installs can be used without raising exactly if the text for the buffer size does
not spell a number from about two million on that is still a finite double. -/
theorem accepted_settings_runnable_iff {values : Form} {secret : List Char} {config : Config}
    (pc : ProxyConfig)
    (h : validateSettings os values (defaultTrayConfig secret) = .accepted config) :
    ((applyProxyConfig os (defaultTrayConfig secret) config pc).1 = true ∧
        Runnable (applyProxyConfig os (defaultTrayConfig secret) config pc).2) ↔
      ¬ TooLarge os values.bufKb := by
  have happly := (accepted_of_validateSettings h).apply pc
  have hdefault : (defaultTrayConfig secret).bufKb < 2097152 := by
    show (256 : ℤ) < 2097152
    norm_num
  rw [happly.2, wholeSetting_lt_iff hdefault]
  exact and_iff_right happly.1

/-- Four numbers below 256 with points between them. -/
def isDottedQuad (s : List Char) : Bool :=
  let parts := s.splitOn '.'
  decide (parts.length = 4) && parts.all fun part =>
    match integer (fun _ => none) part with
    | some n => decide (0 ≤ n ∧ n < 256)
    | none => false

/-- A platform that knows dotted quads and ASCII. -/
def plainPlatform : Platform where
  decimal := fun _ => none
  lower := List.map Char.toLower
  inetAton := fun s => if isDottedQuad s then .ok () else .error .os
  inetPton := isDottedQuad

/-- A form as a user fills it in. -/
def filledForm (bufKb : List Char) : Form where
  host := ['1', '2', '7', '.', '0', '.', '0', '.', '1']
  port := ['1', '4', '4', '3']
  dcIp := ['2', ':', '1', '4', '9', '.', '1', '5', '4', '.', '1', '6', '7', '.', '2', '2', '0',
    '\n']
  secret := List.replicate 16 'a' ++ List.replicate 16 '0'
  bufKb := bufKb
  poolSize := ['4']
  logMaxMb := ['5']
  cfproxyUserDomain := some []
  cfproxyWorkerDomain := some []
  cfproxy := some true
  h2 := some true
  cfproxyUserDomainEnabled := some false
  cfproxyWorkerEnabled := some false
  noSecure := some false

/-- Whether a form went through. -/
def Validated.isAccepted : Validated → Bool
  | .accepted _ => true
  | _ => false

lemma Validated.exists_of_isAccepted {v : Validated} (h : v.isAccepted = true) :
    ∃ config, v = .accepted config := by
  cases v with
  | accepted config => exact ⟨config, rfl⟩
  | rejected _ => cases h
  | raised => cases h

theorem filled_settings_runnable :
    ∃ config,
      validateSettings plainPlatform (filledForm ['2', '5', '6']) (defaultTrayConfig []) =
        .accepted config ∧
      ∀ pc, (((applyProxyConfig plainPlatform (defaultTrayConfig []) config pc).1 = true ∧
          Runnable (applyProxyConfig plainPlatform (defaultTrayConfig []) config pc).2) ↔
        ¬ TooLarge plainPlatform (filledForm ['2', '5', '6']).bufKb) := by
  have haccepted : (validateSettings plainPlatform (filledForm ['2', '5', '6'])
      (defaultTrayConfig [])).isAccepted = true := by decide +kernel
  obtain ⟨config, hconfig⟩ := Validated.exists_of_isAccepted haccepted
  exact ⟨config, hconfig, fun pc => accepted_settings_runnable_iff pc hconfig⟩

/-- Two gibibytes of buffer are accepted and installed, and the first connection raises. -/
theorem huge_buffer_accepted_not_runnable :
    ∃ config,
      validateSettings plainPlatform (filledForm ['2', '0', '9', '7', '1', '5', '2'])
        (defaultTrayConfig []) = .accepted config ∧
      ∀ pc, ¬ ((applyProxyConfig plainPlatform (defaultTrayConfig []) config pc).1 = true ∧
          Runnable (applyProxyConfig plainPlatform (defaultTrayConfig []) config pc).2) := by
  have haccepted : (validateSettings plainPlatform (filledForm ['2', '0', '9', '7', '1', '5', '2'])
      (defaultTrayConfig [])).isAccepted = true := by decide +kernel
  have hsize : wholeSetting plainPlatform ['2', '0', '9', '7', '1', '5', '2']
      (defaultTrayConfig []).bufKb = 2097152 := by decide +kernel
  obtain ⟨config, hconfig⟩ := Validated.exists_of_isAccepted haccepted
  refine ⟨config, hconfig, fun pc => ?_⟩
  rintro ⟨-, hrun⟩
  have hlt := ((accepted_of_validateSettings hconfig).apply pc).2.mp hrun
  exact absurd (hsize ▸ hlt) (lt_irrefl _)

end TgWsProxy.Settings
