/-
  Babycat.Streamer.Profile

  The video source profile (`camera.py`): what registration and streaming
  start make of a JSON object (`_normalize_profile`), and the RTSP and ONVIF
  URLs of a profile.

  A `Profile` is the result of a normalization; it carries the checks that the
  normalization has made.  Python's text of a float, a list or a dict is the
  parameter `repr`.
-/

import Babycat.Recorder.Payload

namespace Babycat.Streamer

open Babycat.Recorder (Json Payload PyFloat)

/-! ## Python -/

/-- `str(value)`. -/
def pyStr (repr : Json → String) : Json → String
  | .null => "None"
  | .bool true => "True"
  | .bool false => "False"
  | .int n => toString n
  | .str s => s
  | value => repr value

/-- `str.isspace` of one character. -/
def isSpace (c : Char) : Bool :=
  let n := c.toNat
  (9 ≤ n && n ≤ 13) || (28 ≤ n && n ≤ 32) || n == 0x85 || n == 0xa0 || n == 0x1680 ||
    (0x2000 ≤ n && n ≤ 0x200a) || n == 0x2028 || n == 0x2029 || n == 0x202f || n == 0x205f ||
    n == 0x3000

/-- `str.strip`. -/
def strip (s : String) : String :=
  String.ofList (((s.toList.dropWhile isSpace).reverse.dropWhile isSpace).reverse)

/-- `first or second`. -/
def orElse (first second : Json) : Json := if first.truthy then first else second

/-- `d.update(other)`. -/
def update (d other : Payload) : Payload :=
  other ++ d.filter fun item => (other.lookup item.1).isNone

/-- `urllib.parse.quote(s, safe="")`. -/
def quote (s : String) : String :=
  let hex (n : ℕ) : Char := "0123456789ABCDEF".toList.getD n '0'
  String.ofList (s.toList.flatMap fun c =>
    if c.isAlphanum || c == '_' || c == '.' || c == '-' || c == '~' then [c]
    else (String.utf8EncodeChar c).flatMap fun b => ['%', hex (b.toNat / 16), hex (b.toNat % 16)])

example : quote "p@ss/é" = "p%40ss%2F%C3%A9" := by decide

/-! ## Normalization -/

def defaultSourceType : String := "rtsp_camera"

structure Profile where
  sourceType : String
  ip : String
  username : String
  password : String
  rtspPort : Json
  onvifPort : Json
  streamPath : String
  supported : sourceType = defaultSourceType
  ip_filled : strip ip ≠ ""
  username_filled : strip username ≠ ""
  password_filled : strip password ≠ ""

/-- The profile as it is stored. -/
def Profile.toDict (p : Profile) : Payload :=
  [("source_type", .str p.sourceType), ("ip", .str p.ip), ("username", .str p.username),
    ("password", .str p.password), ("rtsp_port", p.rtspPort), ("onvif_port", p.onvifPort),
    ("stream_path", .str p.streamPath)]

section Normalize

variable (repr : Json → String) (config existing : Payload)

/-- `_source_type`. -/
def sourceTypeOf : String :=
  let raw := orElse (config.get "source_type") (existing.get "source_type")
  let value := strip (pyStr repr (orElse raw (.str defaultSourceType)))
  if value = "" then defaultSourceType else value

/-- `config.get(key, existing.get(key, ""))`. -/
def getOrStored (key : String) : Json :=
  (config.lookup key).getD ((existing.lookup key).getD (.str ""))

def coalesce (key : String) (default : Json) : Json :=
  match config.get key, existing.get key with
  | .null, .null => default
  | .null, stored => stored
  | value, _ => value

def coalesceOptional (key : String) : Json := (config.lookup key).getD (existing.get key)

/-- The error names the first field that is missing or blank. -/
def required (field : String) : String := "'" ++ field ++ "' is required"

/-- `_normalize_rtsp_camera_profile`. -/
def normalizeRtspCameraProfile (sourceType : String) (supported : sourceType = defaultSourceType) :
    Except String Profile :=
  let password := orElse (config.get "password")
    (if (existing.get "password").truthy then existing.get "password" else config.get "password")
  let ip := strip (pyStr repr (getOrStored config existing "ip"))
  let username := strip (pyStr repr (getOrStored config existing "username"))
  if hip : strip ip = "" then .error (required "ip")
  else if husername : strip username = "" then .error (required "username")
  else
    match password with
    | .str password =>
        if hpassword : strip password = "" then .error (required "password")
        else .ok {
          sourceType, ip, username, password
          rtspPort := coalesce config existing "rtsp_port" (.int 554)
          onvifPort := coalesceOptional config existing "onvif_port"
          streamPath := strip (pyStr repr (coalesce config existing "stream_path" (.str "stream1")))
          supported
          ip_filled := hip
          username_filled := husername
          password_filled := hpassword }
    | _ => .error (required "password")

/-- `_normalize_profile`. -/
def normalizeProfile : Except String Profile :=
  if h : sourceTypeOf repr config existing = defaultSourceType then
    normalizeRtspCameraProfile repr config existing (sourceTypeOf repr config existing) h
  else .error ("unsupported source_type: " ++ sourceTypeOf repr config existing)

end Normalize

/-- A profile is of the type that it was normalized for. -/
theorem sourceTypeOf_toDict (repr : Json → String) (p : Profile) :
    sourceTypeOf repr p.toDict [] = defaultSourceType := by
  have hget : p.toDict.get "source_type" = .str defaultSourceType := by
    rw [← p.supported]
    rfl
  have htruthy : (Json.str defaultSourceType).truthy = true := by decide
  simp only [sourceTypeOf, hget, orElse, htruthy, if_true, pyStr]
  decide

/-! ## URLs -/

def buildRtspUrl (repr : Json → String) (p : Profile) : String :=
  "rtsp://" ++ quote p.username ++ ":" ++ quote p.password ++ "@" ++ p.ip ++ ":" ++
    pyStr repr p.rtspPort ++ "/" ++ p.streamPath

def buildOnvifUrl (repr : Json → String) (p : Profile) : String :=
  "http://" ++ p.ip ++ ":" ++ pyStr repr p.onvifPort ++ "/onvif/service"

end Babycat.Streamer
