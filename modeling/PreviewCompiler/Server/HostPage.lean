namespace PreviewCompiler.Server

def hostPage : String := r##"<!DOCTYPE html>
<html lang="en">
<head>
<meta charset="utf-8" />
<title>livepreview</title>
<style>
  html, body { margin: 0; height: 100%; font-family: system-ui, sans-serif; }
  #frame { border: 0; width: 100%; height: 100%; display: block; }
  #panel {
    position: fixed; left: 0; right: 0; bottom: 0; max-height: 40%; overflow: auto;
    margin: 0; padding: 12px 16px; display: none; white-space: pre-wrap;
    background: #fef2f2; color: #991b1b; border-top: 1px solid #fecaca;
    font: 13px/1.5 ui-monospace, SFMono-Regular, Menlo, monospace;
  }
</style>
</head>
<body>
<iframe id="frame" src="/__preview" sandbox="allow-scripts allow-forms allow-modals allow-popups"></iframe>
<pre id="panel"></pre>
<script>
(function () {
  var frame = document.getElementById("frame");
  var panel = document.getElementById("panel");
  var loaded = null;
  var socket = null;

  function show(text) {
    panel.textContent = text || "";
    panel.style.display = text ? "block" : "none";
  }

  function describe(error) {
    var text = error.message;
    var at = error.location;
    if (at) {
      text += "\n  at " + at.file + (at.line ? ":" + at.line + (at.column ? ":" + at.column : "") : "");
    }
    if (error.stack) text += "\n\n" + error.stack;
    return text;
  }

  function connect() {
    var scheme = location.protocol === "https:" ? "wss://" : "ws://";
    socket = new WebSocket(scheme + location.host + "/__ws");
    socket.onmessage = function (event) {
      var message = JSON.parse(event.data);
      if (message.type === "document") {
        show("");
        if (loaded !== null && loaded !== message.version) {
          frame.src = "/__preview?v=" + message.version;
        }
        loaded = message.version;
      } else if (message.type === "compile-error") {
        show(message.message);
      } else if (message.type === "runtime-error") {
        show(describe(message));
      }
    };
    socket.onclose = function () {
      setTimeout(connect, 1000);
    };
  }

  window.addEventListener("message", function (event) {
    if (event.source !== frame.contentWindow) return;
    var data = event.data;
    if (!data || data.source !== "livepreview") return;
    if (socket && socket.readyState === WebSocket.OPEN) {
      socket.send(JSON.stringify(data));
    }
  });

  connect();
})();
</script>
</body>
</html>
"##

end PreviewCompiler.Server
